import Declutter.Proofs.Python.CasePattern
import Declutter.Proofs.Python.Suite
import Declutter.Python.Statement
/-!
What the rules for statements read. A statement that holds no block is a phrase. A line of them, and
the items of a block, are laid one after the other, with at most a semicolon between them, and no
code is left on the line behind the last one (`Grammar.gives_simpleStatements`,
`Grammar.gives_blockItems`). An item that cannot be read becomes an error node over the rest of the
text, of which nothing is asked.
-/

set_option autoImplicit false
set_option relaxedAutoImplicit false
set_option mvcgen.warning false

namespace Declutter.Python.Grammar

open Std.Do
open Parse

variable [Source] {c : Cursor}

/-! ### Simple statements -/

@[spec]
theorem gives_nameList : nameList.Gives c fun names c' ↦ Node.AreRead c names c' := by
  refine (gives_commaList (fun c ↦ ?_) _ _ _ c).bind fun _ _ _ h ↦ gives_pure h
  apply gives_of_outcome
  mvcgen
  all_goals grind -linarith

@[spec]
theorem gives_importItem (f : Follow) : (importItem f).Gives c fun n c' ↦ n.IsRead c c' := by
  mvcgen [importItem]
  all_goals grind -linarith

@[spec]
theorem gives_importItems (f : Follow) :
    (importItems f).Gives c fun items c' ↦ Node.AreRead c items c' :=
  (gives_commaList (fun _ ↦ gives_importItem f) _ _ _ c).bind fun _ _ _ h ↦ gives_pure h

@[spec]
theorem gives_importedNames : importedNames.Gives c fun items c' ↦ Node.AreRead c items c' := by
  apply gives_of_outcome
  mvcgen [importedNames]
  all_goals grind -linarith

@[spec]
theorem gives_importSource : importSource.Gives c fun _ _ ↦ True := by
  have hloop := givesIf_repeating fun (_ : Bool) _ ↦ True
  mvcgen [importSource, hloop]
  all_goals grind -linarith

@[spec]
theorem gives_importFrom (start : Nat) : (importFrom start).Gives c fun n c' ↦
    start = c.offset → n.IsRead c c' := by
  mvcgen [importFrom]
  all_goals grind -linarith

variable {read : Reader} (hread : ∀ s c, (read s).Gives c (Node.IsReadAs s c))

include hread

@[spec]
theorem gives_strictExpressionList : (strictExpressionList read).Gives c fun values c' ↦
    Node.AreRead c values c' :=
  (gives_commaList (fun _ ↦ gives_phrase hread (s := .expression .statement) nofun) _ _ _ c).bind
    fun _ _ _ h ↦ gives_pure h

@[spec]
theorem gives_raising (start : Nat) : (raising read start).Gives c fun n c' ↦
    start = c.offset → n.IsRead c c' := by
  mvcgen [raising, hread]
  all_goals grind -linarith

@[spec]
theorem gives_typeAlias (start : Nat) : (typeAlias read start).Gives c fun n c' ↦
    start = c.offset → n.IsRead c c' := by
  mvcgen [typeAlias, hread]
  all_goals grind -linarith

@[spec]
theorem gives_assignedValue : (assignedValue read).Gives c fun _ c' ↦
    Source.EndsCode c'.lastEnd := by
  mvcgen [assignedValue, hread]
  all_goals grind -linarith

@[spec]
theorem gives_assignmentPart (left : List Node) :
    (assignmentPart read left).Gives c fun _ c' ↦
      Source.EndsCode c.lastEnd → Source.EndsCode c'.lastEnd := by
  have haugmented := Cursor.isCodeAt_of_atAnyMark augmentedMarks (by decide)
  mvcgen [assignmentPart, hread]
  all_goals grind -linarith

@[spec]
theorem gives_expressionStatement (start : Nat) :
    (expressionStatement read start).Gives c fun n c' ↦
      start = c.offset → c.rest = [] ∨ StartsToken c.rest → n.IsRead c c' := by
  have hloop := givesIf_repeating fun (_ : List Node) c' ↦ Source.EndsCode c'.lastEnd
  mvcgen [expressionStatement, hread, hloop]
  all_goals grind -linarith

@[spec]
theorem gives_printing (start : Nat) : (printing read start).Gives c fun n c' ↦
    start = c.offset → n.IsRead c c' := by
  mvcgen [printing, hread]
  all_goals grind -linarith

@[spec]
theorem gives_execution (start : Nat) : (execution read start).Gives c fun n c' ↦
    start = c.offset → n.IsRead c c' := by
  mvcgen [execution, hread]
  all_goals grind -linarith

omit hread in
theorem gives_wholeStatement {p : Parse Node} (hp : p.Gives c fun n c' ↦ n.IsRead c c') :
    (wholeStatement p).Gives c fun n c' ↦ n.IsRead c c' := by
  refine hp.bind fun n c' hc' hn ↦ ?_
  mvcgen
  all_goals grind -linarith

omit hread in
/-- A keyword, and what follows it. -/
theorem gives_led (form : SimpleForm) {α : Type} {p : Parse α} {nodes : α → List Node}
    (hp : ∀ c, p.Gives c fun a c' ↦ Node.AreRead c (nodes a) c') :
    (do takeWord; let a ← p; node (.simple form) c.offset (nodes a)).Gives c fun n c' ↦
      n.IsRead c c' := by
  mvcgen [hp]
  all_goals grind -linarith

omit hread in
theorem gives_word (form : SimpleForm) :
    (do takeWord; node (.simple form) c.offset []).Gives c fun n c' ↦ n.IsRead c c' := by
  mvcgen
  all_goals grind -linarith

@[spec]
theorem gives_simpleStatement : (simpleStatement read).Gives c fun n c' ↦ n.IsRead c c' := by
  refine (gives_look _).bind fun ahead c' hc' hahead ↦ ?_
  refine gives_offset.bind fun start c₁ _ hstart ↦ ?_
  obtain ⟨rfl, rfl⟩ := hstart
  refine gives_get.bind fun c₂ c₃ _ hget ↦ ?_
  obtain ⟨rfl, rfl⟩ := hget
  dsimp only
  refine Gives.imp (P := fun n c' ↦ n.IsRead c₃ c') ?_ (by grind -linarith)
  have hplain : (expressionStatement read c₃.offset).Gives c₃ fun n c' ↦ n.IsRead c₃ c' :=
    (gives_expressionStatement hread _).imp (by grind -linarith [Ahead.IsAt.startsToken])
  have hraising : (raising read c₃.offset).Gives c₃ fun n c' ↦ n.IsRead c₃ c' :=
    (gives_raising hread _).imp fun _ _ _ h ↦ h rfl
  have hprinting : (printing read c₃.offset).Gives c₃ fun n c' ↦ n.IsRead c₃ c' :=
    (gives_printing hread _).imp fun _ _ _ h ↦ h rfl
  have hexecution : (execution read c₃.offset).Gives c₃ fun n c' ↦ n.IsRead c₃ c' :=
    (gives_execution hread _).imp fun _ _ _ h ↦ h rfl
  have halias : (typeAlias read c₃.offset).Gives c₃ fun n c' ↦ n.IsRead c₃ c' :=
    (gives_typeAlias hread _).imp fun _ _ _ h ↦ h rfl
  refine gives_ite (fun _ ↦ hplain) fun _ ↦ ?_
  refine gives_ite (fun _ ↦ gives_led .importNames fun _ ↦ gives_importItems _) fun _ ↦ ?_
  refine gives_ite (fun _ ↦ (gives_importFrom _).imp fun _ _ _ h ↦ h rfl) fun _ ↦ ?_
  refine gives_ite (fun _ ↦ gives_led .assertion fun _ ↦ gives_strictExpressionList hread)
    fun _ ↦ ?_
  refine gives_ite (fun _ ↦ ?_) fun _ ↦ ?_
  · mvcgen [hread]
    all_goals grind -linarith
  refine gives_ite (fun _ ↦ gives_led .deletion fun _ ↦ gives_expressionList hread _ _) fun _ ↦ ?_
  refine gives_ite (fun _ ↦ hraising) fun _ ↦ ?_
  refine gives_ite (fun _ ↦ gives_word .pass) fun _ ↦ ?_
  refine gives_ite (fun _ ↦ gives_word .breaking) fun _ ↦ ?_
  refine gives_ite (fun _ ↦ gives_word .continuing) fun _ ↦ ?_
  refine gives_ite (fun _ ↦ gives_led .globals fun _ ↦ gives_nameList) fun _ ↦ ?_
  refine gives_ite (fun _ ↦ gives_led .nonlocals fun _ ↦ gives_nameList) fun _ ↦ ?_
  refine gives_ite (fun _ ↦ ?_) fun _ ↦ ?_
  · exact gives_ite (fun _ ↦ hprinting) fun _ ↦ gives_orElse (gives_wholeStatement hplain) hprinting
  refine gives_ite (fun _ ↦ gives_orElse (gives_wholeStatement hplain) hexecution) fun _ ↦ ?_
  exact gives_ite (fun _ ↦ gives_orElse (gives_wholeStatement halias) hplain) fun _ ↦ hplain

@[spec]
theorem gives_simpleStatements : (simpleStatements read).Gives c fun statements c' ↦
    Node.AreListed Node.IsStatement c statements c' ∧ c.offset < c'.lastEnd ∧
      Source.Closes c'.lastEnd := by
  -- as long as a statement may follow, the last one ends in front of the cursor
  have hloop := givesIf_repeating_until (fun (r : List Node × Bool) c' ↦
    Node.AreListed Node.IsStatement c r.1 c' ∧ c.offset < c'.lastEnd ∧
      (r.2 = false → Node.EndAt r.1 c'.lastEnd) ∧ (r.2 = true → Source.Closes c'.offset))
    fun r ↦ r.2 = true
  mvcgen [simpleStatements, hread, hloop]
  all_goals grind -linarith

/-! ### Blocks -/

omit hread in
@[spec]
theorem gives_atCompound : atCompound.Gives c fun _ c' ↦ c' = c := by
  mvcgen [atCompound]
  all_goals grind -linarith

@[spec]
theorem gives_statementLine : (statementLine read).Gives c fun statements c' ↦
    Node.AreListed Node.IsStatement c statements c' := by
  apply gives_of_outcome
  mvcgen [statementLine, hread]
  all_goals grind -linarith

omit hread in
@[spec]
theorem gives_errorNode (i : Nat) : (errorNode i).Gives c fun n c' ↦
    n = ⟨.error, none, ⟨i, c'.lastEnd⟩, []⟩ := by
  mvcgen [errorNode]
  all_goals grind -linarith [Cursor.toEnd, Cursor.IsPlaced.take]

omit hread in
theorem gives_blockItems (e : Expected) {p : Node → Prop} {item : Parse (List Node)}
    (hitem : ∀ c, item.Gives c (Node.AreListed p c)) (c : Cursor) :
    (blockItems e item).Gives c fun items c' ↦ Node.AreLaid c.lastEnd items c'.lastEnd ∧
      Node.AreItems p c.lastEnd items c'.lastEnd ∧ Source.Closes c'.lastEnd := by
  have hloop := givesIf_repeating_until (fun (r : List Node × Bool) c' ↦
    Node.AreLaid c.lastEnd r.1 c'.lastEnd ∧ Node.AreItems p c.lastEnd r.1 c'.lastEnd ∧
      (r.2 = true → Source.Closes c'.offset)) fun r ↦ r.2 = true
  mvcgen [blockItems, hitem, hloop, closeBlock]
  case vc2.hstep.isFalse.h_1 a c₁ hleads ha hended step c₂ hc₂ r c₃ hr =>
    have hstep : step.Gives c₂ fun r c' ↦
        Node.AreLaid c.lastEnd r.1 c'.lastEnd ∧ Node.AreItems p c.lastEnd r.1 c'.lastEnd ∧
          (r.2 = true → Source.Closes c'.offset) := by
      mvcgen [step, hitem]
      all_goals grind -linarith
    grind -linarith [hstep.of_run hr]
  all_goals grind -linarith

end Declutter.Python.Grammar
