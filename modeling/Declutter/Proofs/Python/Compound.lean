import Declutter.Proofs.Python.Statement
/-!
What the rules for compound statements read. A suite is a block of statements behind a colon
(`Grammar.gives_suite`). The other parts of a construct are phrases before its first suite, and
clauses after it, which end in suites of their own. The rules for `for`, `with` and `def` are told
where the statement starts, since `async` may stand before them.
-/

set_option autoImplicit false
set_option relaxedAutoImplicit false
set_option mvcgen.warning false

namespace Declutter.Python.Grammar

open Std.Do
open Parse

variable [Source] {c : Cursor} {read : Reader} (hread : ∀ s c, (read s).Gives c (Node.IsReadAs s c))

include hread

/-! ### Suites and clauses -/

@[spec]
theorem gives_suite : (suite read).Gives c fun n c' ↦ n.IsSuite c.offset ∧ n.label = none ∧
    Node.AreLaid c.offset [n] c'.lastEnd ∧ n.span.stop = c'.lastEnd ∧ c.offset < c'.lastEnd := by
  have hitems (e : Expected) := gives_blockItems e fun _ ↦ gives_statementLine hread
  mvcgen [suite, openBlock, hread, hitems]
  all_goals grind -linarith [→ Node.isBlock_of_laid, → Node.areLaid_block]

omit hread in
@[spec]
theorem gives_atClause (e : Expected) (w : Text) : (atClause e w).Gives c fun b c' ↦
    c'.lastEnd = c.lastEnd ∧ (b = true → c'.atWord w = true) := by
  mvcgen [atClause]
  all_goals grind -linarith

@[spec]
theorem gives_elseClause (e : Expected) : (elseClause read e).Gives c fun nodes c' ↦
    Node.AreClauses c.lastEnd nodes c'.lastEnd := by
  mvcgen [elseClause, hread]
  all_goals grind -linarith

@[spec]
theorem gives_finallyClause : (finallyClause read).Gives c fun n c' ↦
    Node.AreClauses c.lastEnd [n] c'.lastEnd := by
  mvcgen [finallyClause, hread]
  all_goals grind -linarith

/-! ### Statements with suites -/

omit hread in
/-- A loop that goes on behind the clauses it has. -/
theorem gives_clauses (clauses : List Node) (step : List Node → Parse (Option (List Node)))
    (c : Cursor) (hstep : ∀ clauses c, (step clauses).Gives c fun r c' ↦
      ∀ i, Node.AreClauses i clauses c.lastEnd → Node.AreClauses i (r.getD clauses) c'.lastEnd) :
    (repeating clauses step).Gives c fun clauses' c' ↦
      ∀ i, Node.AreClauses i clauses c.lastEnd → Node.AreClauses i clauses' c'.lastEnd :=
  gives_repeating (fun _ ↦ id) fun clauses' c' _ hclauses ↦
    (hstep clauses' c').imp fun _ _ _ h i hi ↦ h i (hclauses i hi)

@[spec]
theorem gives_ifStatement : (ifStatement read).Gives c fun n c' ↦
    n.Begins c ∧ n.Ends c' ∧ n.kind.isCompound = true := by
  mvcgen [ifStatement, hread, gives_clauses]
  all_goals grind -linarith

@[spec]
theorem gives_whileStatement : (whileStatement read).Gives c fun n c' ↦
    n.Begins c ∧ n.Ends c' ∧ n.kind.isCompound = true := by
  mvcgen [whileStatement, hread]
  all_goals grind -linarith

@[spec]
theorem gives_forStatement (start : Nat) : (forStatement read start).Gives c fun n c' ↦
    Source.IsCodeAt c.offset ∧ (start ≤ c.offset → n.span.start = start ∧ n.Ends c') ∧
      n.kind.isCompound = true := by
  mvcgen [forStatement, hread]
  all_goals grind -linarith

@[spec]
theorem gives_withStatement (start : Nat) : (withStatement read start).Gives c fun n c' ↦
    Source.IsCodeAt c.offset ∧ (start ≤ c.offset → n.span.start = start ∧ n.Ends c') ∧
      n.kind.isCompound = true := by
  mvcgen [withStatement, hread]
  all_goals grind -linarith

@[spec]
theorem givesIf_exceptClause (grouped : Bool) : (exceptClause read grouped).GivesIf
    (Source.IsCodeAt c.offset ∧ (if grouped then 7 else 6) ≤ c.rest.length) c fun n c' ↦
      Node.AreClauses c.lastEnd [n] c'.lastEnd := by
  mvcgen [exceptClause, hread]
  all_goals grind -linarith

omit hread in
/-- The text has room for the keyword, with its star or without. -/
theorem isCodeAt_of_atExcept (hc : c.IsPlaced) (h : c.atWord "except" = true) :
    Source.IsCodeAt c.offset ∧
      (if ("except*" : Text).isPrefixOf c.rest then 7 else 6) ≤ c.rest.length := by
  have hlength : c.word.length = 6 := congrArg List.length (beq_iff_eq.mp h)
  have hword : c.word.length ≤ Cursor.wordLength c.rest := List.length_take_le _ _
  refine ⟨(hc.isCodeAt_of_wordLength (by omega)).1, ?_⟩
  split_ifs with hstar
  · exact (List.isPrefixOf_iff_prefix.mp hstar).length_le
  · rw [← hlength]
    exact List.length_take_le' _ _

@[spec]
theorem gives_tryStatement : (tryStatement read).Gives c fun n c' ↦
    n.Begins c ∧ n.Ends c' ∧ n.kind.isCompound = true := by
  mvcgen [tryStatement, hread, gives_clauses]
  all_goals grind -linarith [→ isCodeAt_of_atExcept]

@[spec]
theorem gives_caseClause : (caseClause read).Gives c fun n c' ↦
    n.Begins c ∧ n.Ends c' ∧ n.IsCase := by
  have hpatterns := gives_commaList fun _ ↦ gives_phrase hread (s := .casePattern .header) nofun
  mvcgen [caseClause, hread, hpatterns]
  all_goals grind -linarith [Node.IsCase]

@[spec]
theorem gives_matchStatement : (matchStatement read).Gives c fun n c' ↦
    n.Begins c ∧ n.Ends c' ∧ n.kind.isCompound = true := by
  have hcase (c : Cursor) : (do return [← caseClause read]).Gives c
      (Node.AreListed Node.IsCase c) :=
    (gives_caseClause hread).bind fun _ _ _ h ↦ gives_pure (h.1.areListed h.2.1 h.2.2)
  have hcases (e : Expected) := gives_blockItems e hcase
  mvcgen [matchStatement, openBlock, hread, hcases]
  all_goals grind -linarith

/-! ### Definitions -/

@[spec]
theorem gives_typeParameters : (typeParameters read).Gives c fun types c' ↦
    Node.AreLaid c.lastEnd types c'.lastEnd ∧ Node.ArePhrases types := by
  have htypes := gives_commaList fun _ ↦ gives_constrainedType hread .bracketed
  mvcgen [typeParameters, hread, htypes]
  all_goals grind -linarith

@[spec]
theorem gives_functionDefinition (start : Nat) :
    (functionDefinition read start).Gives c fun n c' ↦
      Source.IsCodeAt c.offset ∧ (start ≤ c.offset → n.span.start = start ∧ n.Ends c') ∧
        n.kind = .functionDefinition ∧ Source.Closes c'.lastEnd := by
  mvcgen [functionDefinition, hread]
  all_goals grind -linarith [→ Node.Begins.areLaid]

@[spec]
theorem gives_classDefinition : (classDefinition read).Gives c fun n c' ↦
    n.span.start = c.offset ∧ n.Begins c ∧ n.Ends c' ∧ n.kind = .classDefinition ∧
      Source.Closes c'.lastEnd := by
  mvcgen [classDefinition, hread]
  all_goals grind -linarith

@[spec]
theorem gives_decorator : (decorator read).Gives c fun n c' ↦
    n.IsPhrase ∧ n.Begins c ∧ n.Ends c' ∧ n.span.start = c.offset := by
  mvcgen [decorator, hread]
  all_goals grind -linarith

@[spec]
theorem gives_decoratedDefinition : (decoratedDefinition read).Gives c fun n c' ↦
    n.Begins c ∧ n.Ends c' ∧ n.kind.isCompound = true := by
  have hloop := givesIf_repeating fun (decorators : List Node) c' ↦
    Node.AreLaid c.offset decorators c'.lastEnd ∧ Node.ArePhrases decorators
  mvcgen [decoratedDefinition, hread, hloop]
  all_goals grind -linarith

@[spec]
theorem gives_compoundStatement : (compoundStatement read).Gives c fun n c' ↦
    n.Begins c ∧ n.Ends c' ∧ n.kind.isCompound = true := by
  mvcgen [compoundStatement, hread]
  all_goals grind -linarith

end Declutter.Python.Grammar
