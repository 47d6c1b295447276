import Declutter.Proofs.Python.Sound
/-!
What the rules for expressions read. Each reads a phrase that begins where the rule starts and ends
where it stops (`Node.IsRead`), and whose parts are laid one after the other in it. The rules are
functions of the readers for the symbols in them, so this is shown of a rule under the hypothesis
`hread` that those readers do the same.

A rule is run symbolically over the lemmas for what it calls. What is left is the order of offsets
and whether a node is sound, which the lemmas on nodes settle. A loop needs its invariant: it is
always that what has been read so far lies between the start of the rule and the cursor.
-/

set_option autoImplicit false
set_option relaxedAutoImplicit false
set_option mvcgen.warning false

namespace Declutter.Python

open Std.Do

variable [Source] {c : Cursor}

namespace Parse

attribute [spec] offset node lastEnd

@[spec]
theorem gives_identifier : identifier.Gives c fun n c' ↦
    n.IsRead c c' ∧ n.span.start = c.offset := by
  mvcgen [identifier]
  all_goals grind -linarith

theorem gives_commaList {item : Parse Node} (hitem : ∀ c, item.Gives c fun n c' ↦ n.IsRead c c')
    (afterItem afterComma : Expected) (stops : Ahead → Cursor → Bool) (c : Cursor) :
    (commaList afterItem afterComma stops item).Gives c fun r c' ↦ Node.AreRead c r.1 c' := by
  have hloop := givesIf_repeating fun (r : List Node × Bool) c' ↦ Node.AreRead c r.1 c'
  mvcgen [commaList, hitem, hloop]
  all_goals grind -linarith

end Parse

namespace Grammar

open Parse

variable {read : Reader} (hread : ∀ s c, (read s).Gives c (Node.IsReadAs s c))

include hread

theorem gives_phrase {s : Symbol} (hs : s ≠ .compound) :
    (read s).Gives c fun n c' ↦ n.IsRead c c' :=
  (hread s c).imp fun _ _ _ h ↦
    have hphrase := h.2.2.resolve_left (hs ·.1)
    ⟨hphrase.1, h.1, h.2.1, hphrase.2⟩

/-! ### String literals -/

@[spec]
theorem gives_body (d : Delimiter) : (StringLiteral.body read d).Gives c fun holes c' ↦
    Node.AreLaid c.lastEnd holes c'.lastEnd ∧
      (d.quote.isCode = true → Source.EndsCode c'.lastEnd) := by
  have hloop := givesIf_repeating_until (fun (r : Bool × List Node × Bool) c' ↦
    Node.AreLaid c.lastEnd r.2.1 c'.lastEnd ∧
      (r.2.2 = true → d.quote.isCode = true → Source.EndsCode c'.lastEnd)) (·.2.2 = true)
  mvcgen [StringLiteral.body, hread, hloop]
  all_goals grind -linarith [→ StringLiteral.closes_of_nextPart, → Delimiter.width_le_of_closes,
    → Cursor.IsPlaced.endsCode_of_closes]

@[spec]
theorem givesIf_stringLiteral :
    (stringLiteral read).GivesIf (Layout.startsString c.rest = true) c fun n c' ↦
      n.IsRead c c' ∧ n.span.start = c.offset := by
  mvcgen [stringLiteral, hread]
  all_goals grind -linarith [Layout.length_takeWhile_lt, Layout.startsToken_of_startsString,
    Delimiter.width_ofPrefix_le, Delimiter.width_pos]

@[spec]
theorem gives_formatSpecifier : (formatSpecifier read).Gives c fun holes c' ↦
    Node.AreLaid c.lastEnd holes c'.lastEnd := by
  have hloop := givesIf_repeating fun (r : List Node × Bool) c' ↦
    Node.AreLaid c.lastEnd r.1 c'.lastEnd
  mvcgen [formatSpecifier, hread, hloop]
  all_goals grind -linarith [List.length_eq_zero_iff]

omit hread in
@[spec]
theorem gives_conversion : conversion.Gives c fun _ _ ↦ True := by
  mvcgen [conversion]
  all_goals grind -linarith

/-! ### Expression lists -/

@[spec]
theorem gives_expressionList (f : Follow) (stopWords : List Text) :
    (expressionList read f stopWords).Gives c fun r c' ↦ Node.AreRead c r.1 c' :=
  gives_commaList (fun _ ↦ gives_phrase hread (s := .expression f) nofun) _ _ _ c

@[spec]
theorem gives_yielding (f : Follow) : (yielding read f).Gives c fun n c' ↦ n.IsRead c c' := by
  mvcgen [yielding, hread]
  all_goals grind -linarith

@[spec]
theorem gives_typeRule (f : Follow) : (typeRule read f).Gives c fun n c' ↦ n.IsRead c c' := by
  have hstars := Cursor.isCodeAt_of_atAnyMark ["*", "**"] (by decide)
  apply gives_of_outcome
  mvcgen [typeRule, hread]
  all_goals grind -linarith

@[spec]
theorem gives_constrainedType (f : Follow) :
    (constrainedType read f).Gives c fun n c' ↦ n.IsRead c c' := by
  have hloop := givesIf_repeating fun (n : Node) c' ↦ n.IsRead c c'
  apply gives_of_outcome
  mvcgen [constrainedType, hread, hloop]
  all_goals grind -linarith

@[spec]
theorem gives_annotated (typed : Bool) (f : Follow) (start : Nat) (parts : List Node) :
    (parameter.annotated read typed f start parts).Gives c (Node.Completes start parts c) := by
  mvcgen [parameter.annotated, hread]
  all_goals grind -linarith

@[spec]
theorem gives_withDefault (f : Follow) (start : Nat) (parts : List Node) :
    (parameter.withDefault read f start parts).Gives c (Node.Completes start parts c) := by
  mvcgen [parameter.withDefault, hread]
  all_goals grind -linarith

@[spec]
theorem gives_parameter (typed : Bool) :
    (parameter read typed).Gives c fun n c' ↦ n.IsRead c c' := by
  have hstars := Cursor.isCodeAt_of_atAnyMark ["*", "**"] (by decide)
  apply gives_of_outcome
  mvcgen [parameter, hread]
  all_goals grind -linarith

@[spec]
theorem gives_parameterList (typed : Bool) (stops : Cursor → Bool) :
    (parameterList read typed stops).Gives c fun items c' ↦ Node.AreRead c items c' :=
  (gives_commaList (fun _ ↦ gives_parameter hread typed) _ _ _ c).bind fun _ _ _ h ↦ gives_pure h

omit hread in
@[spec]
theorem gives_closeParenthesis : closeParenthesis.Gives c fun nodes c' ↦
    Node.AreLaid c.lastEnd nodes c'.lastEnd ∧
      (Source.EndsCode c.lastEnd → Source.EndsCode c'.lastEnd) := by
  mvcgen [closeParenthesis]
  all_goals grind -linarith

@[spec]
theorem gives_parameters : (parameters read).Gives c fun n c' ↦ n.IsRead c c' := by
  mvcgen [parameters, hread]
  all_goals grind -linarith

@[spec]
theorem gives_lambda (f : Follow) : (lambda read f).Gives c fun n c' ↦ n.IsRead c c' := by
  mvcgen [lambda, hread]
  all_goals grind -linarith

@[spec]
theorem gives_targetRule : (targetRule read).Gives c fun n c' ↦ n.IsRead c c' := by
  mvcgen [targetRule, hread]
  all_goals grind -linarith

@[spec]
theorem gives_targetList : (targetList read).Gives c fun items c' ↦ Node.AreRead c items c' :=
  (gives_commaList (fun _ ↦ gives_targetRule hread) _ _ _ c).bind fun _ _ _ h ↦ gives_pure h

/-! ### Comprehensions and displays -/

@[spec]
theorem gives_loop : (comprehensionClauses.loop read).Gives c fun n c' ↦ n.IsRead c c' := by
  have hvalues (f : Follow) := gives_commaList fun _ ↦ gives_phrase hread (s := .expression f) nofun
  mvcgen [comprehensionClauses.loop, hread, hvalues]
  all_goals grind -linarith

@[spec]
theorem gives_comprehensionClauses : (comprehensionClauses read).Gives c fun clauses c' ↦
    Node.AreRead c clauses c' := by
  have hloop := givesIf_repeating fun (r : Bool × List Node) c' ↦ Node.AreRead c r.2 c'
  mvcgen [comprehensionClauses, hread, hloop]
  all_goals grind -linarith

@[spec]
theorem gives_starredItem : (starredItem read).Gives c fun n c' ↦ n.IsRead c c' := by
  refine gives_orElse ?_ ?_
  all_goals
    mvcgen [hread]
    all_goals grind -linarith

@[spec]
theorem gives_displayItem : (displayItem read).Gives c fun n c' ↦ n.IsRead c c' := by
  apply gives_of_outcome
  mvcgen [displayItem, hread]
  all_goals grind -linarith

@[spec]
theorem gives_displayTail (close : Text) (first : Node) :
    (displayTail read close first).Gives c fun r c' ↦
      (∀ i, Node.AreLaid i [first] c.lastEnd → Node.AreLaid i r.1 c'.lastEnd) ∧
        ∃ c₁ : Cursor, c₁.IsPlaced ∧ c₁.atMark close = true ∧
          c'.lastEnd = c₁.offset + close.length := by
  have hitems := gives_commaList fun _ ↦ gives_displayItem hread
  mvcgen [displayTail, hread, hitems]
  all_goals grind -linarith

@[spec]
theorem gives_parenthesized : (parenthesized read).Gives c fun n c' ↦ n.IsRead c c' := by
  mvcgen [parenthesized, hread]
  all_goals grind -linarith

@[spec]
theorem gives_listDisplay : (listDisplay read).Gives c fun n c' ↦ n.IsRead c c' := by
  mvcgen [listDisplay, hread]
  all_goals grind -linarith

@[spec]
theorem gives_pairAfter (key : Node) : (pairAfter read key).Gives c fun n c' ↦
    n.Completes key.span.start [key] c c' := by
  mvcgen [pairAfter, hread]
  all_goals grind -linarith

@[spec]
theorem gives_doubleStarred : (doubleStarred read).Gives c fun n c' ↦ n.IsRead c c' := by
  mvcgen [doubleStarred, hread]
  all_goals grind -linarith

@[spec]
theorem gives_dictionaryItem : (dictionaryItem read).Gives c fun n c' ↦ n.IsRead c c' := by
  apply gives_of_outcome
  mvcgen [dictionaryItem, hread]
  all_goals grind -linarith

@[spec]
theorem gives_dictionaryTail (start : Nat) (first : Node) :
    (dictionaryTail read start first).Gives c (Node.Completes start [first] c) := by
  have hitems := gives_commaList fun _ ↦ gives_dictionaryItem hread
  mvcgen [dictionaryTail, hread, hitems]
  all_goals grind -linarith

@[spec]
theorem gives_comprehension (start : Nat) (first : Node) :
    (braceDisplay.comprehension read start first).Gives c (Node.Completes start [first] c) := by
  mvcgen [braceDisplay.comprehension, hread]
  all_goals grind -linarith

@[spec]
theorem gives_braceDisplay : (braceDisplay read).Gives c fun n c' ↦ n.IsRead c c' := by
  apply gives_of_outcome
  mvcgen [braceDisplay, hread]
  all_goals grind -linarith

/-! ### Calls and subscripts -/

@[spec]
theorem gives_argument : (argument read).Gives c fun n c' ↦ n.IsRead c c' := by
  apply gives_of_outcome
  mvcgen [argument, hread]
  all_goals grind -linarith

@[spec]
theorem gives_arguments : (arguments read).Gives c fun n c' ↦
    n.IsRead c c' ∧ n.span.start = c.offset ∧ Source.IsOpenAt c.offset := by
  have hitems := gives_commaList fun _ ↦ gives_argument hread
  mvcgen [arguments, hread, hitems]
  all_goals grind -linarith

@[spec]
theorem gives_bound : (subscriptItem.bound read).Gives c fun nodes c' ↦
    c.offset < c'.lastEnd ∧ Source.EndsCode c'.lastEnd ∧
      Node.AreLaid c.offset nodes c'.lastEnd := by
  have hcolon := Cursor.isCodeAt_of_atUnit ':' (by decide)
  mvcgen [subscriptItem.bound, hread]
  all_goals grind -linarith

@[spec]
theorem gives_subscriptItem : (subscriptItem read).Gives c fun n c' ↦ n.IsRead c c' := by
  have hcolon := Cursor.isCodeAt_of_atUnit ':' (by decide)
  mvcgen [subscriptItem, hread]
  all_goals grind -linarith [Ahead.IsAt.startsToken]

@[spec]
theorem gives_subscripts : (subscripts read).Gives c fun items c' ↦ Node.AreRead c items c' := by
  have hitems := gives_commaList fun _ ↦ gives_subscriptItem hread
  mvcgen [subscripts, hread, hitems]
  all_goals grind -linarith

/-! ### Operands and expressions -/

@[spec]
theorem givesIf_strings (f : Follow) :
    (strings read f).GivesIf (Layout.startsString c.rest = true) c fun n c' ↦
      n.IsRead c c' ∧ n.span.start = c.offset := by
  have hloop (first : Node) := givesIf_repeating (Node.AreJoined c first) [first]
  mvcgen [strings, hread, hloop]
  all_goals grind -linarith

@[spec]
theorem gives_atom (f : Follow) : (atom read f).Gives c fun n c' ↦ n.IsRead c c' := by
  apply gives_of_outcome
  mvcgen [atom, hread]
  all_goals grind -linarith [Cursor.numberLength_le, Cursor.IsPlaced.isCodeAt_of_numberLength]

@[spec]
theorem gives_trailer (f : Follow) (operand : Node) :
    (trailer read f operand).Gives c fun n? c' ↦ operand.IsPhrase → operand.Ends c →
      Source.EndsCode c.lastEnd →
        (n?.getD operand).IsPhrase ∧ (n?.getD operand).span.start = operand.span.start ∧
          (n?.getD operand).Ends c' ∧ Source.EndsCode c'.lastEnd := by
  mvcgen [trailer, hread]
  all_goals grind -linarith

@[spec]
theorem gives_primary (f : Follow) : (primary read f).Gives c fun n c' ↦ n.IsRead c c' := by
  have hloop := givesIf_repeating fun (n : Node) c' ↦ n.IsRead c c'
  apply gives_of_outcome
  mvcgen [primary, hread, hloop]
  all_goals grind -linarith

omit hread in
@[spec]
theorem gives_binaryOperator (f : Follow) : (binaryOperator f).Gives c fun b c' ↦
    b = false → c'.lastEnd = c.lastEnd := by
  have hmarks := Cursor.isCodeAt_of_atAnyMark Cursor.binaryMarks (by decide)
  mvcgen [binaryOperator]
  all_goals grind -linarith

@[spec]
theorem gives_operation (f : Follow) : (operation read f).Gives c fun n c' ↦ n.IsRead c c' := by
  have hloop := givesIf_repeating fun (n : Node) c' ↦ n.IsRead c c'
  apply gives_of_outcome
  mvcgen [operation, hread, hloop]
  all_goals grind -linarith

@[spec]
theorem gives_expressionRule (f : Follow) :
    (expressionRule read f).Gives c fun n c' ↦ n.IsRead c c' := by
  apply gives_of_outcome
  mvcgen [expressionRule, hread]
  all_goals grind -linarith [Ahead.IsAt.startsToken]

@[spec]
theorem gives_holeRule : (holeRule read).Gives c fun n c' ↦ n.IsRead c c' := by
  have hopens := Cursor.isCodeAt_of_atUnit 123 (by decide)
  have hcloses := Cursor.isCodeAt_of_atUnit 125 (by decide)
  mvcgen [holeRule, hread]
  all_goals grind -linarith

@[spec]
theorem gives_starredPrimary (f : Follow) :
    (starredPrimary read f).Gives c fun n c' ↦ n.IsRead c c' := by
  mvcgen [starredPrimary, hread]
  all_goals
    grind -linarith [→ Node.isPhrase_of_star?, → Node.span_of_star?, → Node.isSound_of_star?]

@[spec]
theorem gives_operandRule (f : Follow) : (operandRule read f).Gives c fun n c' ↦ n.IsRead c c' := by
  have hloop := givesIf_repeating fun (n : Node) c' ↦ n.IsRead c c'
  have hunary := Cursor.isCodeAt_of_atAnyMark Cursor.unaryMarks (by decide)
  apply gives_of_outcome
  mvcgen [operandRule, hread, hloop]
  all_goals grind -linarith [Ahead.IsAt.startsToken]

end Grammar

end Declutter.Python
