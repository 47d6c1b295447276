import Declutter.Proofs.Tree.Balance
import Declutter.Proofs.Tree.Gaps
import Declutter.Proofs.Tree.Refusal
import Declutter.Proofs.Tree.Whole
/-!
Pruning once is enough. No call to a target is left in a pruned tree, at any depth, whatever was
taken out of it before (`Statement.isHit_prune`); and where there is no such call pruning takes
nothing out and counts nothing: it only takes back the marks of emptied blocks, since a block is
marked afresh by each pruning (`Statement.prune_of_not_isHit`). The marks have no part in how a tree
is written back, so a second pruning, under any policy, changes neither the counts nor the edits
(`Tree.prune_prune`).
-/

set_option autoImplicit false
set_option relaxedAutoImplicit false

namespace Declutter

/-! ### Marks -/

mutual

/-- The statement with no block inside it marked as emptied. -/
def Statement.unmark : Statement → Statement
  | .compound c => .compound c.unmark
  | .expression span value => .expression span value
  | .placeholder span => .placeholder span
  | .inert span type => .inert span type

/-- The construct with no block inside it marked as emptied. -/
def Construct.unmark : Construct → Construct
  | ⟨kind, span, clauses, dropped⟩ => ⟨kind, span, Clause.unmarkAll clauses, dropped⟩

def Clause.unmarkAll : List Clause → List Clause
  | [] => []
  | ⟨role, span, body⟩ :: rest => ⟨role, span, body.unmark⟩ :: Clause.unmarkAll rest

/-- The block, not marked as emptied, and no block inside it marked either. -/
def Block.unmark : Block → Block
  | ⟨span, statements, excised, _⟩ => ⟨span, Statement.unmarkAll statements, excised, false⟩

def Statement.unmarkAll : List Statement → List Statement
  | [] => []
  | s :: rest => s.unmark :: Statement.unmarkAll rest

end

/-- The tree without marks. -/
def Tree.unmark (tree : Tree) : Tree := { tree with body := tree.body.unmark }

theorem Statement.unmarkAll_eq (statements : List Statement) :
    Statement.unmarkAll statements = statements.map Statement.unmark := by
  induction statements with
  | nil => rfl
  | cons s rest ih => rw [Statement.unmarkAll, ih, List.map_cons]

theorem Clause.unmarkAll_eq (clauses : List Clause) :
    Clause.unmarkAll clauses = clauses.map fun cl ↦ { cl with body := cl.body.unmark } := by
  induction clauses with
  | nil => rfl
  | cons cl rest ih =>
    cases cl
    rw [Clause.unmarkAll, ih, List.map_cons]

theorem Block.unmark_eq (b : Block) :
    b.unmark = { b with statements := b.statements.map Statement.unmark, emptied := false } := by
  cases b
  rw [Block.unmark, Statement.unmarkAll_eq]

theorem Construct.unmark_eq (c : Construct) :
    c.unmark = { c with clauses := c.clauses.map fun cl ↦ { cl with body := cl.body.unmark } } := by
  cases c
  rw [Construct.unmark, Clause.unmarkAll_eq]

theorem Block.unmark_unmark_of {b : Block} (h : ∀ s ∈ b.statements, s.unmark.unmark = s.unmark) :
    b.unmark.unmark = b.unmark := by
  rw [unmark_eq, unmark_eq, List.map_map]
  congr 1
  exact List.map_congr_left h

/-- Marks that were taken back are not there any more. -/
theorem Statement.unmark_unmark (s : Statement) : s.unmark.unmark = s.unmark := by
  induction s using Statement.induct with
  | expression span value => rw [unmark, unmark]
  | placeholder span => rw [unmark, unmark]
  | inert span type => rw [unmark, unmark]
  | compound c ih =>
    rw [unmark, unmark, Construct.unmark_eq, Construct.unmark_eq, List.map_map]
    congr 2
    refine List.map_congr_left fun cl hcl ↦ ?_
    rw [Function.comp_apply, Block.unmark_unmark_of (ih cl hcl)]

/-! ### Marks and edits -/

namespace Edit

variable {t : Text}

theorem ofBlock_unmark_of {b : Block}
    (h : ∀ s ∈ b.statements, ofStatement t s.unmark = ofStatement t s) :
    ofBlock t b.unmark = ofBlock t b := by
  obtain ⟨span, statements, excised, emptied⟩ := b
  have hstatements : ∀ l : List Statement, (∀ s ∈ l, ofStatement t s.unmark = ofStatement t s) →
      ofStatements t (l.map Statement.unmark) = ofStatements t l := by
    intro l hl
    induction l with
    | nil => rfl
    | cons s rest ih =>
      rw [List.forall_mem_cons] at hl
      rw [List.map_cons, ofStatements, ofStatements, hl.1, ih hl.2]
  rw [Block.unmark_eq, ofBlock, ofBlock, hstatements statements h]

theorem ofStatement_unmark (s : Statement) : ofStatement t s.unmark = ofStatement t s := by
  induction s using Statement.induct with
  | expression span value => rw [Statement.unmark]
  | placeholder span => rw [Statement.unmark]
  | inert span type => rw [Statement.unmark]
  | compound c ih =>
    obtain ⟨kind, span, clauses, dropped⟩ := c
    have hclauses : ofClauses t (clauses.map fun cl ↦ { cl with body := cl.body.unmark }) =
        ofClauses t clauses := by
      induction clauses with
      | nil => rfl
      | cons cl rest ihrest =>
        obtain ⟨role, clauseSpan, body⟩ := cl
        simp only [List.forall_mem_cons] at ih
        rw [List.map_cons, ofClauses, ofClauses, ofBlock_unmark_of ih.1, ihrest ih.2]
    rw [Statement.unmark, Construct.unmark_eq, ofStatement, ofStatement, ofConstruct,
      ofConstruct, hclauses]

/-- Marks have no part in what is edited. -/
theorem ofBlock_unmark (b : Block) : ofBlock t b.unmark = ofBlock t b :=
  ofBlock_unmark_of fun s _ ↦ ofStatement_unmark s

/-- Nothing is deleted without spans. -/
theorem runsOf_nil : runsOf t [] = [] := by simp [runsOf, Span.sortByStart]

end Edit

/-- In a block in which nothing is missing there is no deletion that could be refused. -/
theorem Block.isWritable_of_gaps_eq_nil {t : Text} {b : Block} (hgaps : b.gaps = []) :
    b.IsWritable t := by
  obtain ⟨hexcised, hinner⟩ := List.append_eq_nil_iff.mp hgaps
  rw [List.flatMap_eq_nil_iff] at hinner
  refine ⟨by simp [hexcised, Edit.runsOf_nil], fun s hs ↦ ?_⟩
  have hs := hinner s hs
  cases s with
  | expression | placeholder | inert => trivial
  | compound c =>
    obtain ⟨hdropped, hclauses⟩ := List.append_eq_nil_iff.mp hs
    rw [List.flatMap_eq_nil_iff] at hclauses
    exact ⟨by simp [hdropped], fun cl hcl ↦ by simp [hclauses cl hcl, Edit.runsOf_nil]⟩

/-! ### Nothing to remove -/

section Pruning

variable {targets : TargetSet} {policy : Policy}

/-- No call to a target is left of a statement. -/
theorem Statement.isHit_prune (s : Statement) :
    ∀ kept ∈ (s.prune targets policy).1, ∀ u ∈ kept.all, targets.isHit u = false := by
  induction s using Statement.induct with
  | expression span value =>
    rw [prune]
    split_ifs with htarget
    · rintro kept ⟨⟩
    · rintro kept ⟨⟩
      rw [all_expression]
      exact List.forall_mem_singleton.mpr (eq_false_of_ne_true htarget)
  | placeholder span =>
    rw [prune]
    rintro kept ⟨⟩
    rw [all_placeholder]
    exact List.forall_mem_singleton.mpr rfl
  | inert span type =>
    rw [prune]
    rintro kept ⟨⟩
    rw [all_inert]
    exact List.forall_mem_singleton.mpr rfl
  | compound c ih =>
    rw [fst_prune_compound]
    intro kept hkept
    obtain ⟨d, hsettle, rfl⟩ := Option.map_eq_some_iff.mp hkept
    obtain ⟨-, -, hsettles⟩ := Construct.settles_of_settle hsettle
    refine forall_all_compound.mpr ⟨rfl, hsettles.forall_statements (fun span ↦ ?_) ?_⟩
    · rw [all_placeholder]
      exact List.forall_mem_singleton.mpr rfl
    · rw [Construct.pruneInner, List.forall_mem_map]
      intro cl hcl t ht
      rw [Clause.body_prune, Block.statements_prune] at ht
      obtain ⟨s, hs, hprune⟩ := List.mem_filterMap.mp ht
      exact ih cl hcl s hs t hprune

/-- Where nothing goes from the statements of a block, pruning only takes back marks. -/
theorem Block.prune_of_not_isHit_of {b : Block}
    (h : ∀ s ∈ b.statements, s.prune targets policy = (some s.unmark, 0)) :
    b.prune targets policy = (b.unmark, 0) := by
  have hstatements : (b.prune targets policy).1.statements = b.statements.map Statement.unmark := by
    rw [statements_prune, ← List.filterMap_eq_map]
    exact List.filterMap_congr fun s hs ↦ by rw [h s hs, Function.comp_apply]
  have hexcised : (b.prune targets policy).1.excised = b.excised := by
    rw [excised_prune, List.filter_eq_nil_iff.mpr fun s hs ↦ by simp [h s hs], List.map_nil,
      List.append_nil]
  have hemptied : (b.prune targets policy).1.emptied = false :=
    eq_false_of_ne_true fun hemptied ↦ by
    obtain ⟨hne, hnil⟩ := (emptied_prune targets policy b).mp hemptied
    rw [hstatements, List.map_eq_nil_iff] at hnil
    exact hne hnil
  have htally : (b.prune targets policy).2 = 0 := by
    rw [snd_prune, List.sum_eq_zero]
    exact List.forall_mem_map.mpr fun s hs ↦ by rw [h s hs]
  refine Prod.ext ?_ htally
  rw [unmark_eq, ← b.span_prune targets policy, ← hstatements, ← hexcised, ← hemptied]
  cases (b.prune targets policy).1
  rfl

/-- Where there is no call to a target, pruning only takes back marks. -/
theorem Statement.prune_of_not_isHit (s : Statement)
    (hnone : ∀ u ∈ s.all, targets.isHit u = false) :
    s.prune targets policy = (some s.unmark, 0) := by
  induction s using Statement.induct with
  | expression span value =>
    have htarget : targets.isTarget value = false := hnone _ (mem_all_self _)
    rw [prune, htarget, unmark]
    rfl
  | placeholder span => rw [prune, unmark]
  | inert span type => rw [prune, unmark]
  | compound c ih =>
    obtain ⟨-, hinner⟩ := forall_all_compound.mp hnone
    have hbody : ∀ cl ∈ c.clauses, cl.body.prune targets policy = (cl.body.unmark, 0) :=
      fun cl hcl ↦
      Block.prune_of_not_isHit_of fun s hs ↦ ih cl hcl s hs (hinner cl hcl s hs)
    have hunmark : c.pruneInner targets policy = c.unmark := by
      rw [Construct.pruneInner, Construct.unmark_eq]
      congr 1
      refine List.map_congr_left fun cl hcl ↦ ?_
      obtain ⟨role, span, body⟩ := cl
      rw [Clause.prune, hbody _ hcl]
    have hsettle : c.unmark.settle policy = (some c.unmark, 0) := by
      unfold Construct.settle
      rw [if_pos]
      rw [Construct.emptiedCount_eq_zero_iff, Construct.unmark_eq]
      exact List.forall_mem_map.mpr fun cl _ ↦ by rw [Block.unmark_eq]
    have htally : (c.clauses.map fun cl ↦ (cl.body.prune targets policy).2).sum = 0 :=
      List.sum_eq_zero (List.forall_mem_map.mpr fun cl hcl ↦ by rw [hbody cl hcl])
    refine Prod.ext ?_ ?_
    · rw [fst_prune_compound, hunmark, hsettle, unmark, Option.map_some]
    · rw [snd_prune_compound, hunmark, hsettle, htally]
      rfl

end Pruning

/-! ### Trees -/

namespace Tree

variable {targets : TargetSet} {policy : Policy} {tree : Tree}

/-- No call to a target is left in a pruned tree. -/
theorem isHit_prune : ∀ u ∈ (tree.prune targets policy).1.body.all, targets.isHit u = false := by
  by_cases htargets : targets.paths = []
  · exact fun u _ ↦ TargetSet.isHit_eq_false htargets u
  · rw [prune_of_ne_nil htargets, Block.forall_all, Block.statements_prune]
    intro kept hkept
    obtain ⟨s, -, hprune⟩ := List.mem_filterMap.mp hkept
    exact s.isHit_prune kept hprune

/-- Without calls to the targets nothing is counted, and the tree comes back but for its marks,
which are no part of how it is written back. -/
theorem prune_of_not_isHit (hnone : ∀ u ∈ tree.body.all, targets.isHit u = false) :
    (tree.prune targets policy).2 = 0 ∧ (tree.prune targets policy).1.unmark = tree.unmark ∧
      (tree.prune targets policy).1.edits = tree.edits := by
  by_cases htargets : targets.paths = []
  · rw [prune_of_eq_nil htargets]
    exact ⟨rfl, rfl, rfl⟩
  · have hbody : tree.body.prune targets policy = (tree.body.unmark, 0) :=
      Block.prune_of_not_isHit_of fun s hs ↦ s.prune_of_not_isHit (Block.forall_all.mp hnone s hs)
    rw [prune_of_ne_nil htargets, hbody]
    refine ⟨rfl, ?_, Edit.ofBlock_unmark tree.body⟩
    rw [unmark, Block.unmark_unmark_of fun s _ ↦ s.unmark_unmark, unmark]

/-- A tree in which nothing is missing is written back as its source. -/
theorem render_of_gaps_eq_nil (hgaps : tree.body.gaps = []) : tree.render = .ok tree.source := by
  obtain ⟨edits, hedits⟩ :=
    (Edit.exists_ofBlock_iff tree.body).mpr (Block.isWritable_of_gaps_eq_nil hgaps)
  have hnil : edits = [] := List.eq_nil_iff_forall_not_mem.mpr fun e he ↦
    Edit.not_fills_nil (hgaps ▸ Edit.fills_ofBlock hedits e he)
  rw [render, Tree.edits, hedits, hnil]
  exact Except.mapError_eq_ok_iff.mpr (Edit.applyAll_eq_weave (by simp) .nil)

/-- Without calls to the targets, a tree in which nothing is missing is written back as its
source. -/
theorem render_prune_of_not_isHit (hgaps : tree.body.gaps = [])
    (hnone : ∀ u ∈ tree.body.all, targets.isHit u = false) :
    (tree.prune targets policy).1.render = .ok tree.source := by
  rw [render, (prune_of_not_isHit hnone).2.2, source_prune]
  exact render_of_gaps_eq_nil hgaps

/-- Pruning once is enough. A second pruning of a tree, whatever had been taken out of it before and
whatever the policies are, counts nothing, changes nothing but marks of emptied blocks, and has the
same edits, or the same fault. Where nothing is missing in a tree, as in a fresh one, and no
statement in it is a call to a target, already the first pruning counts nothing, and the tree is
written back as its source. -/
theorem prune_prune (targets : TargetSet) (first second : Policy) (tree : Tree) :
    ((tree.prune targets first).1.prune targets second).2 = 0 ∧
    ((tree.prune targets first).1.prune targets second).1.unmark =
      (tree.prune targets first).1.unmark ∧
    ((tree.prune targets first).1.prune targets second).1.edits =
      (tree.prune targets first).1.edits ∧
    (tree.body.gaps = [] → (∀ s ∈ tree.body.all, targets.isHit s = false) →
      (tree.prune targets first).2 = 0 ∧
      (tree.prune targets first).1.render = .ok tree.source) := by
  have hleft : ∀ u ∈ (tree.prune targets first).1.body.all, targets.isHit u = false := isHit_prune
  obtain ⟨htally, hunmark, hedits⟩ := @prune_of_not_isHit targets second _ hleft
  refine ⟨htally, hunmark, hedits, fun hgaps hnone ↦ ?_⟩
  exact ⟨(prune_of_not_isHit hnone).1, render_prune_of_not_isHit hgaps hnone⟩

/-- Kept empty, three blocks of the specimen are marked; a second pruning, which could take out a
whole loop, takes the marks back and does nothing more. No call to `log` is in the specimen. -/
theorem prune_prune_specimen :
    (specimenTree.prune ⟨["print"]⟩ .keep).2 = ⟨3, 0, 0, 0, 3⟩ ∧
    ((specimenTree.prune ⟨["print"]⟩ .keep).1.prune ⟨["print"]⟩ .remove).2 = 0 ∧
    specimenTree.body.gaps = [] ∧
    (∀ s ∈ specimenTree.body.all, TargetSet.isHit ⟨["log"]⟩ s = false) ∧
    (specimenTree.prune ⟨["log"]⟩ .remove).2 = 0 ∧
    (specimenTree.prune ⟨["log"]⟩ .remove).1.render = .ok specimen := by
  have hgaps : specimenTree.body.gaps = [] := by decide +kernel
  have hnone : ∀ s ∈ specimenTree.body.all, TargetSet.isHit ⟨["log"]⟩ s = false := by decide +kernel
  obtain ⟨htally, hrender⟩ := (prune_prune ⟨["log"]⟩ .remove .keep specimenTree).2.2.2 hgaps hnone
  exact ⟨by decide +kernel, (prune_prune ⟨["print"]⟩ .keep .remove specimenTree).1, hgaps, hnone,
    htally, hrender⟩

end Tree

end Declutter
