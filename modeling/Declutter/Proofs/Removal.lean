import Declutter.Proofs.Except
import Declutter.Proofs.Text.Line
import Declutter.Removal
/-!
What a removal gives. Unless emptied blocks are kept, a text from which statements were taken is
valid Python (`Removal.check_apply`), since the removal reads it again. That says nothing about the
tree that it reads to.

A statement alone on its lines is deleted with them (`Edit.splice_deleteStatement_alone`), and so is
a comment alone on its line if blank lines need not stay (`Strip.splice_removal_alone`), whatever is
on the line before. If that line ends in a backslash, it goes on in the line that is now the next.
So a result may read to another tree than the one that was written, and a text without its comments
need not be valid at all.
-/

set_option autoImplicit false
set_option relaxedAutoImplicit false

namespace Declutter

/-! ### Trees up to spans -/

/-- The expression without its spans. -/
def Expression.plain : Expression → Expression
  | .call _ callee _ => .call default callee.plain default
  | .name _ id => .name default id
  | .field _ object label => .field default object.plain label
  | .other _ => .other default

mutual

/-- The statement without its spans and without traces of what was removed from it; a placeholder is
the `pass` that is written for it. -/
def Statement.plain : Statement → Statement
  | .expression _ value => .expression default value.plain
  | .compound c => .compound c.plain
  | .placeholder _ => .inert default "pass_statement"
  | .inert _ type => .inert default type

def Construct.plain : Construct → Construct
  | ⟨kind, _, clauses, _⟩ => ⟨kind, default, Clause.plainAll clauses, []⟩

def Clause.plainAll : List Clause → List Clause
  | [] => []
  | ⟨role, _, body⟩ :: rest => ⟨role, default, body.plain⟩ :: Clause.plainAll rest

/-- The block without its spans and without traces of what was removed from it. Two blocks that are
equal so hold the same statements, nested in the same way. -/
def Block.plain : Block → Block
  | ⟨_, statements, _, _⟩ => ⟨default, Statement.plainAll statements, [], false⟩

def Statement.plainAll : List Statement → List Statement
  | [] => []
  | s :: rest => s.plain :: Statement.plainAll rest

end

theorem Statement.plainAll_eq (statements : List Statement) :
    Statement.plainAll statements = statements.map Statement.plain := by
  induction statements with
  | nil => rfl
  | cons s rest ih => rw [Statement.plainAll, ih, List.map_cons]

theorem Block.statements_plain (b : Block) :
    b.plain.statements = b.statements.map Statement.plain := by
  cases b
  rw [Block.plain, Statement.plainAll_eq]

/-- Blocks that are equal up to spans have equally many statements. -/
theorem Block.length_statements_congr {b c : Block} (h : b.plain = c.plain) :
    b.statements.length = c.statements.length := by
  rw [← List.length_map (f := Statement.plain), ← statements_plain, h, statements_plain,
    List.length_map]

/-! ### Steps of a removal -/

section Steps

variable {parse : Text → Python.Node}

/-- What happened in a removal that has a result. -/
theorem Removal.exists_of_apply {removal : Removal} {source : Text} {cleaned : Cleaned}
    (h : removal.apply source parse = .ok cleaned) :
    ∃ policy targets tree rendered,
      Policy.ofWord removal.policy = .ok policy ∧
      TargetSet.ofNames removal.targets = .ok targets ∧
      Python.readTree source parse = .ok tree ∧
      (tree.prune targets policy).1.render = .ok rendered ∧
      (policy.demandsSyntax = true → rendered ≠ source → Python.check rendered parse = none) ∧
      removal.strip rendered = .ok (cleaned.text, cleaned.commentsRemoved) ∧
      cleaned.changed = (cleaned.text != source) ∧
      cleaned.tally = (tree.prune targets policy).2 := by
  unfold apply at h
  simp only [Except.bind_eq_ok_iff, Except.mapError_eq_ok_iff] at h
  obtain ⟨policy, hpolicy, targets, htargets, tree, htree, rendered, hrendered, h⟩ := h
  refine ⟨policy, targets, tree, rendered, hpolicy, htargets, htree, hrendered, ?_⟩
  have hlast : ∀ {x : Except RemovalFault (Text × Nat)},
      (x >>= fun result ↦
        pure ⟨result.1, result.1 != source, (tree.prune targets policy).2, result.2⟩) =
          .ok cleaned →
      x = .ok (cleaned.text, cleaned.commentsRemoved) ∧ cleaned.changed = (cleaned.text != source) ∧
        cleaned.tally = (tree.prune targets policy).2 := by
    intro x hx
    obtain ⟨result, rfl, hresult⟩ := Except.bind_eq_ok_iff.mp hx
    obtain rfl := Except.ok.inj hresult
    exact ⟨rfl, rfl, rfl⟩
  split at h
  · cases hcheck : Python.check rendered parse with
    | none =>
      rw [hcheck] at h
      exact ⟨fun _ _ ↦ rfl, hlast h⟩
    | some fault =>
      rw [hcheck] at h
      obtain ⟨_, hthrow, -⟩ := Except.bind_eq_ok_iff.mp h
      cases hthrow
  · next hsame =>
    refine ⟨fun hdemands hne ↦ absurd ?_ hsame, hlast h⟩
    rw [hdemands, Bool.true_and]
    exact bne_iff_ne.mpr hne

/-- What happened in a removal that has a result, by its settings and the tree of its source. -/
theorem Removal.exists_rendered {removal : Removal} {policy : Policy} {targets : TargetSet}
    {source : Text} {tree : Tree} {cleaned : Cleaned}
    (hpolicy : Policy.ofWord removal.policy = .ok policy)
    (htargets : TargetSet.ofNames removal.targets = .ok targets)
    (htree : Python.readTree source parse = .ok tree)
    (h : removal.apply source parse = .ok cleaned) :
    ∃ rendered, (tree.prune targets policy).1.render = .ok rendered ∧
      (policy.demandsSyntax = true → rendered ≠ source → Python.check rendered parse = none) ∧
      removal.strip rendered = .ok (cleaned.text, cleaned.commentsRemoved) := by
  obtain ⟨_, _, _, rendered, hpolicy', htargets', htree', hrendered, hcheck, hstrip, -⟩ :=
    exists_of_apply h
  obtain rfl := Except.ok.inj (hpolicy.symm.trans hpolicy')
  obtain rfl := Except.ok.inj (htargets.symm.trans htargets')
  obtain rfl := Except.ok.inj (htree.symm.trans htree')
  exact ⟨rendered, hrendered, hcheck, hstrip⟩

/-- A text is read as Python exactly if it has no syntax fault. -/
theorem Python.readTree_eq_ok_iff {source : Text} {tree : Tree} :
    readTree source parse = .ok tree ↔
      check source parse = none ∧ tree = ⟨source, Lowering.block source (parse source)⟩ := by
  unfold readTree
  cases hcheck : check source parse with
  | none => simp [eq_comm]
  | some => simp

/-- The result of a removal of statements is valid Python again, unless emptied blocks are kept. -/
theorem Removal.check_apply {removal : Removal} {policy : Policy} {source : Text}
    {cleaned : Cleaned} (hpolicy : Policy.ofWord removal.policy = .ok policy)
    (hdemands : policy.demandsSyntax = true) (hcomments : removal.removeComments = false)
    (h : removal.apply source parse = .ok cleaned) :
    Python.check cleaned.text parse = none := by
  obtain ⟨_, targets, tree, rendered, hpolicy', -, htree, -, hcheck, hstrip, -, -⟩ :=
    exists_of_apply h
  obtain rfl := Except.ok.inj (hpolicy.symm.trans hpolicy')
  rw [strip, hcomments] at hstrip
  have htext : rendered = cleaned.text := congrArg Prod.fst (Except.ok.inj hstrip)
  by_cases hsame : rendered = source
  · rw [← htext, hsame]
    exact (Python.readTree_eq_ok_iff.mp htree).1
  · rw [← htext]
    exact hcheck hdemands hsame

end Steps

/-! ### Whole lines -/

section WholeLines

variable {before indent tail following : Text}

/-- A statement alone on its lines, with or without a semicolon and a comment after it, is deleted
with these lines. -/
theorem Edit.deleteStatement_alone (statement : Text) (hbefore : before.EndsLine)
    (hindent : indent.IsOnLine) (hblank : indent.isBlank = true) (htail : tail.IsOnLine)
    (hcode : holdsNoCode ((afterSeparator? tail).getD tail) = true)
    (hfollowing : following.StartsAfterLine) :
    deleteStatement (before ++ (indent ++ (statement ++ (tail ++ following))))
        ⟨before.length + indent.length, before.length + indent.length + statement.length⟩ =
      .ok (deleteLines (before ++ (indent ++ (statement ++ (tail ++ following)))) before.length
        (before.length + (indent ++ statement ++ tail).length)) := by
  have hstart := Text.lineStart_append (statement ++ (tail ++ following)) hbefore hindent
  have hsliceBefore := Text.slice_append before indent (statement ++ (tail ++ following))
  have hstop := Text.lineEnd_append (before ++ indent ++ statement) htail hfollowing
  have hsliceAfter := Text.slice_append (before ++ indent ++ statement) tail following
  simp only [List.append_assoc, List.length_append, ← Nat.add_assoc] at hstop hsliceAfter ⊢
  simp only [deleteStatement, hstart, hstop, hsliceBefore, hsliceAfter, hblank, if_true]
  cases hseparator : afterSeparator? tail with
  | none =>
    rw [hseparator, Option.getD_none] at hcode
    exact if_pos hcode
  | some rest =>
    rw [hseparator, Option.getD_some] at hcode
    exact if_pos hcode

/-- What a statement alone on its lines leaves: the text before its first line and the text after
its last. -/
theorem Edit.splice_deleteStatement_alone (statement : Text) (hbefore : before.EndsLine)
    (hindent : indent.IsOnLine) (hblank : indent.isBlank = true) (htail : tail.IsOnLine)
    (hcode : holdsNoCode ((afterSeparator? tail).getD tail) = true)
    (hfollowing : following.StartsAfterLine) :
    (deleteStatement (before ++ (indent ++ (statement ++ (tail ++ following))))
        ⟨before.length + indent.length, before.length + indent.length + statement.length⟩).map
        (·.splice (before ++ (indent ++ (statement ++ (tail ++ following))))) =
      .ok (before ++ following.tail) := by
  rw [deleteStatement_alone statement hbefore hindent hblank htail hcode hfollowing]
  have hsplice := splice_deleteLines before (indent ++ statement ++ tail) following
  simp only [List.append_assoc] at hsplice ⊢
  exact congrArg Except.ok hsplice

theorem Strip.afterLineEnding_append (before : Text) {ending : Text} (rest : Text)
    (hending : ending = [10] ∨ ending = [13, 10] ∨ ending = [] ∧ rest = []) :
    afterLineEnding (before ++ (ending ++ rest)) before.length = before.length + ending.length := by
  rcases hending with rfl | rfl | ⟨rfl, rfl⟩ <;> simp [afterLineEnding]

/-- The edit of a comment alone on its line begins with the line, and takes the ending of the line
along unless blank lines are to stay. -/
theorem Strip.removal_alone {ending : Text} (comment rest : Text) (preserveBlankLines : Bool)
    (hbefore : before.EndsLine) (hindent : indent.IsOnLine) (hblank : indent.isBlank = true)
    (hending : ending = [10] ∨ ending = [13, 10] ∨ ending = [] ∧ rest = []) :
    removal (before ++ (indent ++ (comment ++ (ending ++ rest)))) preserveBlankLines
        ⟨before.length + indent.length, before.length + indent.length + comment.length⟩ =
      .deletion before.length (before.length + indent.length + comment.length +
        if preserveBlankLines then 0 else ending.length) := by
  have hstart := Text.lineStart_append (comment ++ (ending ++ rest)) hbefore hindent
  have hslice := Text.slice_append before indent (comment ++ (ending ++ rest))
  have hstop := afterLineEnding_append (before ++ indent ++ comment) rest hending
  simp only [List.append_assoc, List.length_append] at hstop
  rw [removal]
  simp only [hstart, hslice, hblank, if_true, ← Nat.add_assoc] at hstop ⊢
  cases preserveBlankLines <;> simp [hstop]

/-- What a comment alone on its line leaves: the text before its line and the text after it, with
the ending of the line between them if blank lines are to stay. -/
theorem Strip.splice_removal_alone {ending rest : Text} (comment : Text) (preserveBlankLines : Bool)
    (hbefore : before.EndsLine) (hindent : indent.IsOnLine) (hblank : indent.isBlank = true)
    (hending : ending = [10] ∨ ending = [13, 10] ∨ ending = [] ∧ rest = []) :
    (removal (before ++ (indent ++ (comment ++ (ending ++ rest)))) preserveBlankLines
        ⟨before.length + indent.length, before.length + indent.length + comment.length⟩).splice
        (before ++ (indent ++ (comment ++ (ending ++ rest)))) =
      before ++ if preserveBlankLines then ending ++ rest else rest := by
  rw [removal_alone comment rest preserveBlankLines hbefore hindent hblank hending]
  cases preserveBlankLines with
  | true =>
    have hsplice := Edit.splice_deletion before (indent ++ comment) (ending ++ rest)
    simp only [List.append_assoc, List.length_append, ← Nat.add_assoc] at hsplice
    exact hsplice
  | false =>
    have hsplice := Edit.splice_deletion before (indent ++ comment ++ ending) rest
    simp only [List.append_assoc, List.length_append, ← Nat.add_assoc] at hsplice
    exact hsplice

end WholeLines

/-! ### Lines that go on -/

/-- A text in which a call has its own line, although the line before goes on in it. -/
def goingOn : Text := "if a: f(1); \\\nprint(2)\nlog(3)\n"

/-- The result of a removal need not read to the pruned tree, not even up to spans. In `goingOn` the
line of the `print` goes as a whole, and the line of the `if` goes on in the call after it, which
moves into the `if`. -/
theorem Removal.apply_regroups :
    ¬ ∀ (removal : Removal) (policy : Policy) (targets : TargetSet) (source : Text) (tree : Tree)
        (cleaned : Cleaned),
      Policy.ofWord removal.policy = .ok policy → policy ≠ .keep → removal.removeComments = false →
      TargetSet.ofNames removal.targets = .ok targets → Python.readTree source = .ok tree →
      removal.apply source = .ok cleaned →
      ∃ result, Python.readTree cleaned.text = .ok result ∧
        result.body.plain = (tree.prune targets policy).1.body.plain := by
  intro h
  have hcheck : Python.check goingOn = none := by decide +kernel
  have hresult : ((Removal.apply {} goingOn).toOption).map (·.text) =
      some ("if a: f(1); \\\nlog(3)\n" : Text) := by decide +kernel
  obtain ⟨cleaned, happly, htext⟩ := Except.exists_of_map_toOption hresult
  obtain ⟨result, hread, hplain⟩ := h {} .fill ⟨["print"]⟩ goingOn _ cleaned rfl (by decide) rfl rfl
    (Python.readTree_eq_ok_iff.mpr ⟨hcheck, rfl⟩) happly
  rw [htext] at hread
  obtain ⟨-, rfl⟩ := Python.readTree_eq_ok_iff.mp hread
  -- the result reads to the `if` alone, the pruned tree has the call after it
  have hlength := Block.length_statements_congr hplain
  revert hlength
  decide +kernel

/-- A text with a comment that has its own line, although the line before goes on in it. -/
def goingOnInComment : Text := "x = a \\\n# c\nprint(b)\n"

/-- A valid text without its comments need not be valid, let alone read to the same tree. In
`goingOnInComment` the line of the comment goes as a whole, and the assignment goes on in the
call. -/
theorem Text.strip_joins :
    ¬ ∀ (source : Text) (rules : CommentRules) (tree : Tree) (stripped : Text)
    (removed : List Passage),
      Python.readTree source = .ok tree → source.strip rules = .ok (stripped, removed) →
      ∃ result, Python.readTree stripped = .ok result ∧ result.body.plain = tree.body.plain := by
  intro h
  have hcheck : Python.check goingOnInComment = none := by decide +kernel
  have hresult : ((goingOnInComment.strip {}).toOption).map (·.1) =
      some ("x = a \\\nprint(b)\n" : Text) := by decide +kernel
  obtain ⟨⟨stripped, removed⟩, hstrip, rfl⟩ := Except.exists_of_map_toOption hresult
  obtain ⟨result, hread, -⟩ := h goingOnInComment {} _ _ removed
    (Python.readTree_eq_ok_iff.mpr ⟨hcheck, rfl⟩) hstrip
  have hfault : Python.check "x = a \\\nprint(b)\n" ≠ none := by decide +kernel
  exact hfault (Python.readTree_eq_ok_iff.mp hread).1

end Declutter
