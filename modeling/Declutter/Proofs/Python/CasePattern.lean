import Declutter.Proofs.Python.Expression
import Declutter.Python.CasePattern
/-!
What the rules for the patterns of a `match` read. They are phrases, as expressions are.
-/

set_option autoImplicit false
set_option relaxedAutoImplicit false
set_option mvcgen.warning false

namespace Declutter.Python.Grammar

open Std.Do
open Parse

variable [Source] {c : Cursor}

@[spec]
theorem gives_dottedName (f : Follow) : (dottedName f).Gives c fun n c' ↦
    n.IsRead c c' ∧ n.span.start = c.offset := by
  have hloop (first : Node) := givesIf_repeating (Node.AreJoined c first) [first]
  mvcgen [dottedName, hloop]
  all_goals grind -linarith

@[spec]
theorem gives_patternNumber : patternNumber.Gives c fun _ c' ↦
    c.offset < c'.lastEnd ∧ (StartsToken c.rest → Source.IsCodeAt c.offset) ∧
      Source.EndsCode c'.lastEnd := by
  mvcgen [patternNumber]
  all_goals grind -linarith [Cursor.numberLength_le, Cursor.IsPlaced.isCodeAt_of_numberLength]

variable {read : Reader} (hread : ∀ s c, (read s).Gives c (Node.IsReadAs s c))

theorem gives_bracketedPatterns (opening closing : Text) {item : Parse Node}
    (hopening : opening.isCode = true ∧ opening ≠ [])
    (hclosing : closing.isCode = true ∧ closing ≠ [])
    (hitem : ∀ c, item.Gives c fun n c' ↦ n.IsRead c c') (c : Cursor) :
    (bracketedPatterns opening closing item).Gives c fun n c' ↦ n.IsRead c c' := by
  have hopens := Cursor.isCodeAt_of_atMark opening hopening.1 hopening.2
  have hcloses := Cursor.isCodeAt_of_atMark closing hclosing.1 hclosing.2
  have hitems := gives_commaList hitem
  mvcgen [bracketedPatterns, hitems]
  all_goals grind -linarith

include hread

@[spec]
theorem gives_mappingItem : (mappingItem read).Gives c fun n c' ↦ n.IsRead c c' := by
  apply gives_of_outcome
  mvcgen [mappingItem, hread]
  all_goals grind -linarith

@[spec]
theorem gives_closedPattern (f : Follow) :
    (closedPattern read f).Gives c fun n c' ↦ n.IsRead c c' := by
  have hstars := Cursor.isCodeAt_of_atAnyMark ["*", "**"] (by decide)
  have hsigns := Cursor.isCodeAt_of_atAnyMark ["+", "-"] (by decide)
  have hpattern (c : Cursor) : (read (.casePattern .bracketed)).Gives c fun n c' ↦ n.IsRead c c' :=
    gives_phrase hread nofun
  have hround := gives_bracketedPatterns "(" ")" (by decide) (by decide) hpattern
  have hsquare := gives_bracketedPatterns "[" "]" (by decide) (by decide) hpattern
  have hbraces := gives_bracketedPatterns "\x7b" "\x7d" (by decide) (by decide)
    fun _ ↦ gives_mappingItem hread
  apply gives_of_outcome
  mvcgen [closedPattern, hread, hround, hsquare, hbraces]
  all_goals grind -linarith

@[spec]
theorem gives_simplePatternRule (f : Follow) :
    (simplePatternRule read f).Gives c fun n c' ↦ n.IsRead c c' := by
  have hloop := givesIf_repeating fun (n : Node) c' ↦ n.IsRead c c'
  apply gives_of_outcome
  mvcgen [simplePatternRule, hread, hloop]
  all_goals grind -linarith

@[spec]
theorem gives_casePatternRule (f : Follow) :
    (casePatternRule read f).Gives c fun n c' ↦ n.IsRead c c' := by
  have hloop := givesIf_repeating fun (n : Node) c' ↦ n.IsRead c c'
  apply gives_of_outcome
  mvcgen [casePatternRule, hread, hloop]
  all_goals grind -linarith

end Declutter.Python.Grammar
