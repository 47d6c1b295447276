import Declutter.Proofs.Tree.Settling
import Declutter.Proofs.Tree.Shape
import Mathlib.Data.List.Basic
/-!
Exactly the right statements survive pruning. The outline of a block lists its statements at every
depth without what is inside them and without placeholders; pruning turns the outline of a fresh
block into the sublist of the statements that survive (`Block.outline_prune`).

A leaf survives unless it is a call to a target. A compound statement survives under `fill` and
`keep`; under `remove` it survives exactly if it binds a name or something lasting is left inside
it, at any depth.
-/

set_option autoImplicit false
set_option relaxedAutoImplicit false

namespace Declutter

/-! ### What survives -/

/-- Whether the statement is nothing but a call to one of the targets. -/
def TargetSet.isHit (targets : TargetSet) : Statement → Bool
  | .expression _ value => targets.isTarget value
  | _ => false

theorem TargetSet.isHit_eq_false {targets : TargetSet} (h : targets.paths = []) (s : Statement) :
    targets.isHit s = false := by
  cases s with
  | expression span value =>
    cases value with
    | call _ callee _ =>
      rw [isHit, isTarget, h]
      cases callee.path? <;> rfl
    | _ => rfl
  | _ => rfl

namespace Statement

/-- A statement of the source that holds no block. -/
def isLeaf : Statement → Bool
  | .expression .. | .inert .. => true
  | .compound _ | .placeholder _ => false

def construct? : Statement → Option Construct
  | .compound c => some c
  | _ => none

/-- A leaf that is no call to a target, or a definition. -/
def isLasting (targets : TargetSet) : Statement → Bool
  | .compound c => c.kind.bindsName
  | .placeholder _ => false
  | s => !targets.isHit s

end Statement

namespace Construct

/-- The construct binds a name, or something lasting is inside it. -/
def lasts (targets : TargetSet) (c : Construct) : Bool :=
  c.kind.bindsName || c.inner.any (·.isLasting targets)

/-- The construct without its clauses: its kind and its span. -/
def bare (c : Construct) : Construct := { c with clauses := [], dropped := [] }

end Construct

namespace Statement

/-- Whether the statement is still there after pruning. -/
def survives (targets : TargetSet) (policy : Policy) : Statement → Bool
  | .compound c => policy != .remove || c.lasts targets
  | s => !targets.isHit s

/-- The statement without what is inside it. -/
def bare : Statement → Statement
  | .compound c => .compound c.bare
  | s => s

/-- The statements of a list without placeholders, each one bare. -/
def outlineOf (statements : List Statement) : List Statement :=
  (statements.filter (!·.isPlaceholder)).map bare

end Statement

namespace Block

/-- The leaves at every depth, in the order of the text. -/
def leaves (b : Block) : List Statement := b.all.filter Statement.isLeaf

/-- The constructs at every depth, each before those inside it. -/
def constructs (b : Block) : List Construct := b.all.filterMap Statement.construct?

/-- The statements at every depth, placeholders aside and without what is inside them. -/
def outline (b : Block) : List Statement := Statement.outlineOf b.all

end Block

/-! ### Outlines -/

namespace Statement

theorem outlineOf_flatMap {α : Type} (l : List α) (f : α → List Statement) :
    outlineOf (l.flatMap f) = l.flatMap fun a ↦ outlineOf (f a) := by
  rw [outlineOf, List.filter_flatMap, List.map_flatMap]
  rfl

theorem outlineOf_cons (s : Statement) (rest : List Statement) :
    outlineOf (s :: rest) = if s.isPlaceholder then outlineOf rest
      else s.bare :: outlineOf rest := by
  rw [outlineOf, List.filter_cons]
  cases s.isPlaceholder <;> rfl

theorem leaves_map_bare (statements : List Statement) :
    (statements.map bare).filter isLeaf = statements.filter isLeaf := by
  have hcomp : isLeaf ∘ bare = isLeaf := funext fun s ↦ by cases s <;> rfl
  rw [List.filter_map, hcomp]
  refine (List.map_congr_left fun s hs ↦ ?_).trans (List.map_id' _)
  have hleaf := (List.mem_filter.mp hs).2
  cases s with
  | compound => exact Bool.noConfusion hleaf
  | _ => rfl

theorem constructs_map_bare (statements : List Statement) :
    (statements.map bare).filterMap construct? =
      (statements.filterMap construct?).map Construct.bare := by
  rw [List.filterMap_map, List.map_filterMap]
  refine List.filterMap_congr fun s _ ↦ ?_
  cases s <;> rfl

theorem leaves_outlineOf (statements : List Statement) :
    (outlineOf statements).filter isLeaf = statements.filter isLeaf := by
  rw [outlineOf, leaves_map_bare, List.filter_filter]
  refine List.filter_congr fun s _ ↦ ?_
  cases s <;> rfl

theorem constructs_outlineOf (statements : List Statement) :
    (outlineOf statements).filterMap construct? =
      (statements.filterMap construct?).map Construct.bare := by
  rw [outlineOf, constructs_map_bare, List.filterMap_filter]
  congr 1
  refine List.filterMap_congr fun s _ ↦ ?_
  cases s <;> rfl

end Statement

theorem Block.outline_eq (b : Block) :
    b.outline = b.statements.flatMap fun s ↦ Statement.outlineOf s.all := by
  rw [Block.outline, Block.all_eq, Statement.outlineOf_flatMap]

theorem Statement.outlineOf_all_compound (c : Construct) :
    outlineOf (Statement.compound c).all =
      .compound c.bare :: c.clauses.flatMap (·.body.outline) := by
  rw [all_compound, Construct.inner_eq, outlineOf_cons, outlineOf_flatMap]
  rfl

/-- Settling changes nothing that is read off statements and not off placeholders: a clause that is
filled or dropped had no statement. -/
theorem Settles.flatMap_eq {α : Type} {policy : Policy} {handled : Bool}
    {before after : List Clause} {f : Statement → List α} (h : Settles policy handled before after)
    (hempty : ∀ c ∈ before, c.body.emptied = true → c.body.statements = [])
    (hplaceholder : ∀ span, f (.placeholder span) = []) :
    (after.flatMap fun c ↦ c.body.statements.flatMap f) = before.flatMap fun c ↦
      c.body.statements.flatMap f := by
  induction h with
  | nil => rfl
  | keep _ _ ih =>
    rw [List.forall_mem_cons] at hempty
    rw [List.flatMap_cons, List.flatMap_cons, ih hempty.2]
  | @fill c _ _ emptied _ _ ih =>
    rw [List.forall_mem_cons] at hempty
    have hnil : c.body.statements = [] := hempty.1 emptied
    have hfilled : c.fill.1.body.statements.flatMap f = [] := by
      rw [Clause.fill]
      split
      · rw [hnil, List.flatMap_nil]
      · rw [List.flatMap_singleton, hplaceholder]
    rw [List.flatMap_cons, List.flatMap_cons, ih hempty.2, hfilled, hnil, List.flatMap_nil]
  | @drop c _ _ emptied _ _ _ ih =>
    rw [List.forall_mem_cons] at hempty
    rw [List.flatMap_cons, ih hempty.2, hempty.1 emptied, List.flatMap_nil, List.nil_append]

/-- Settling changes no outline. -/
theorem Settles.outline_eq {policy : Policy} {handled : Bool} {before after : List Clause}
    (h : Settles policy handled before after)
    (hempty : ∀ c ∈ before, c.body.emptied = true → c.body.statements = []) :
    after.flatMap (·.body.outline) = before.flatMap (·.body.outline) := by
  simp only [Block.outline_eq]
  exact h.flatMap_eq hempty fun span ↦ by rw [Statement.all_placeholder]; rfl

/-! ### Survivors -/

section Survivors

variable {targets : TargetSet} {policy : Policy}

theorem Statement.survives_remove {s : Statement} (h : s.IsFresh) :
    s.survives targets .remove = s.all.any (·.isLasting targets) := by
  cases s with
  | compound c => simp [survives, isLasting, Construct.lasts]
  | placeholder => exact h.elim
  | expression =>
    simp only [survives, isLasting, all_expression, List.any_cons, List.any_nil, Bool.or_false]
  | inert => simp only [survives, isLasting, all_inert, List.any_cons, List.any_nil, Bool.or_false]

/-- A construct that goes under `remove` binds no name, and every statement in its clauses goes. -/
theorem Construct.lasts_eq_false_iff {c : Construct}
    (hfresh : ∀ t ∈ (Statement.compound c).all, t.IsFresh) :
    c.lasts targets = false ↔ c.kind.bindsName = false ∧
      ∀ cl ∈ c.clauses, ∀ s ∈ cl.body.statements, s.survives targets .remove = false := by
  obtain ⟨-, hinner⟩ := Statement.forall_all_compound.mp hfresh
  rw [lasts, Bool.or_eq_false_iff, List.any_eq_false, inner_eq, List.forall_mem_flatMap]
  refine and_congr_right fun _ ↦ forall₂_congr fun cl hcl ↦ ?_
  rw [Block.forall_all]
  refine forall₂_congr fun s hs ↦ ?_
  rw [Statement.survives_remove (hinner cl hcl s hs s s.mem_all_self), List.any_eq_false]

/-- What has to hold for a construct to go once its clauses are pruned. That removal has emptied one
of its clauses need not be said: they all had statements. -/
theorem Construct.settle_pruneInner_eq_none_iff {c : Construct} (hfresh : c.IsFresh) :
    ((c.pruneInner targets policy).settle policy).1 = none ↔
      policy = .remove ∧ c.kind.bindsName = false ∧
        ∀ cl ∈ c.clauses, (cl.body.prune targets policy).1.statements = [] := by
  have hall : (∀ cl ∈ (c.pruneInner targets policy).clauses, cl.body.statements = []) ↔
      ∀ cl ∈ c.clauses, (cl.body.prune targets policy).1.statements = [] := by
    simp only [pruneInner, List.forall_mem_map, Clause.body_prune]
  rw [settle_eq_none_iff, hall]
  constructor
  · rintro ⟨hpolicy, -, hbinds, hempty⟩
    exact ⟨hpolicy, hbinds, hempty⟩
  · rintro ⟨hpolicy, hbinds, hempty⟩
    refine ⟨hpolicy, fun hcount ↦ ?_, hbinds, hempty⟩
    obtain ⟨cl, hcl⟩ := List.exists_mem_of_ne_nil _ hfresh.clauses
    have hemptied : (cl.body.prune targets policy).1.emptied = true :=
      (Block.emptied_prune targets policy _).mpr ⟨hfresh.statements cl hcl, hempty cl hcl⟩
    have hnot := emptiedCount_eq_zero_iff.mp hcount _ (List.mem_map_of_mem hcl)
    rw [Clause.body_prune, hemptied] at hnot
    exact Bool.noConfusion hnot

/-- Pruning keeps exactly the statements that survive. -/
theorem Statement.prune_eq_none_iff (s : Statement) (hfresh : ∀ t ∈ s.all, t.IsFresh) :
    (s.prune targets policy).1 = none ↔ s.survives targets policy = false := by
  induction s using Statement.induct with
  | expression span value =>
    simp only [prune, survives, TargetSet.isHit]
    cases targets.isTarget value <;> simp
  | placeholder span => simp [prune, survives, TargetSet.isHit]
  | inert span type => simp [prune, survives, TargetSet.isHit]
  | compound c ih =>
    obtain ⟨hc, hinner⟩ := forall_all_compound.mp hfresh
    rw [fst_prune_compound, Option.map_eq_none_iff, Construct.settle_pruneInner_eq_none_iff hc,
      survives, Bool.or_eq_false_iff, Construct.lasts_eq_false_iff hfresh, bne_eq_false_iff_eq]
    refine and_congr_right fun hpolicy ↦ and_congr_right fun _ ↦ forall₂_congr fun cl hcl ↦ ?_
    rw [Block.statements_prune, List.filterMap_eq_nil_iff, ← hpolicy]
    exact forall₂_congr fun s hs ↦ ih cl hcl s hs (hinner cl hcl s hs)

/-- The outline of a pruned block is the part of its outline that survives, if that holds of each of
its statements. -/
theorem Block.outline_prune_of {b : Block}
    (h : ∀ s ∈ b.statements, (s.prune targets policy).1.toList.flatMap
        (fun t ↦ Statement.outlineOf t.all) =
      (s.all.filter (·.survives targets policy)).map Statement.bare) :
    (b.prune targets policy).1.outline =
      (b.all.filter (·.survives targets policy)).map Statement.bare := by
  rw [outline_eq, statements_prune, List.filterMap_eq_flatMap_toList, List.flatMap_assoc, all_eq,
    List.filter_flatMap, List.map_flatMap]
  exact List.flatMap_congr h

/-- Pruning leaves of a statement the part of its outline that survives. -/
theorem Statement.outline_prune (s : Statement) (hfresh : ∀ t ∈ s.all, t.IsFresh) :
    (s.prune targets policy).1.toList.flatMap (fun t ↦ outlineOf t.all) =
      (s.all.filter (·.survives targets policy)).map bare := by
  induction s using Statement.induct with
  | expression span value =>
    cases h : targets.isTarget value <;>
      simp [prune, survives, TargetSet.isHit, outlineOf, isPlaceholder, bare, h]
  | placeholder span => exact (hfresh _ (mem_all_self _)).elim
  | inert span type => simp [prune, survives, TargetSet.isHit, outlineOf, isPlaceholder, bare]
  | compound c ih =>
    have hsurvives : ((Statement.compound c).prune targets policy).1 = none ↔
        (Statement.compound c).survives targets policy = false := prune_eq_none_iff _ hfresh
    obtain ⟨hc, hinner⟩ := forall_all_compound.mp hfresh
    have hclauses : (c.pruneInner targets policy).clauses.flatMap (·.body.outline) =
        (c.inner.filter (·.survives targets policy)).map bare := by
      rw [Construct.pruneInner, List.flatMap_map, Construct.inner_eq, List.filter_flatMap,
        List.map_flatMap]
      refine List.flatMap_congr fun cl hcl ↦ ?_
      rw [Clause.body_prune]
      exact Block.outline_prune_of fun s hs ↦ ih cl hcl s hs (hinner cl hcl s hs)
    rw [fst_prune_compound] at hsurvives ⊢
    rw [all_compound, List.filter_cons]
    cases hsettle : ((c.pruneInner targets policy).settle policy).1 with
    | none =>
      -- nothing is left inside a construct that goes, so its outline holds no survivor
      have hempty : ∀ cl ∈ (c.pruneInner targets policy).clauses, cl.body.statements = [] :=
        (Construct.settle_eq_none_iff.mp hsettle).2.2.2
      have hnil : (c.pruneInner targets policy).clauses.flatMap (·.body.outline) = [] := by
        rw [List.flatMap_eq_nil_iff]
        intro cl hcl
        rw [Block.outline_eq, hempty cl hcl, List.flatMap_nil]
      rw [hsettle] at hsurvives
      rw [if_neg (by simp [hsurvives.mp rfl]), ← hclauses, hnil]
      rfl
    | some d =>
      rw [hsettle] at hsurvives
      obtain ⟨hkind, hspan, hsettles⟩ := Construct.settles_of_settle hsettle
      have hbare : d.bare = c.bare := by rw [Construct.bare, Construct.bare, hkind, hspan]; rfl
      have houtline := hsettles.outline_eq fun cl hcl ↦
        Construct.statements_eq_nil_of_emptied targets policy hcl
      rw [if_pos (by simpa using hsurvives), List.map_cons, ← hclauses, ← houtline, Option.map_some,
        Option.toList_some, List.flatMap_singleton, outlineOf_all_compound, hbare]
      rfl

/-- Pruning leaves of a fresh block the part of its outline that survives. -/
theorem Block.outline_prune {b : Block} (hfresh : ∀ s ∈ b.all, s.IsFresh) :
    (b.prune targets policy).1.outline =
      (b.all.filter (·.survives targets policy)).map Statement.bare :=
  outline_prune_of fun s hs ↦ s.outline_prune (Block.forall_all.mp hfresh s hs)

end Survivors

/-! ### Leaves and constructs -/

section Leaves

variable {targets : TargetSet} {policy : Policy} {b : Block}

/-- The leaves of a pruned block are its leaves, without the calls to the targets. -/
theorem Block.leaves_prune (hfresh : ∀ s ∈ b.all, s.IsFresh) :
    (b.prune targets policy).1.leaves = b.leaves.filter (!targets.isHit ·) := by
  rw [leaves, ← Statement.leaves_outlineOf, ← outline, outline_prune hfresh,
    Statement.leaves_map_bare, leaves, List.filter_filter, List.filter_filter]
  refine List.filter_congr fun s _ ↦ ?_
  cases s <;> simp [Statement.isLeaf, Statement.survives]

/-- The constructs of a pruned block are its constructs that survive. -/
theorem Block.constructs_prune (hfresh : ∀ s ∈ b.all, s.IsFresh) :
    (b.prune targets policy).1.constructs.map Construct.bare =
      (b.constructs.filter fun c ↦ policy != .remove || c.lasts targets).map Construct.bare := by
  rw [constructs, ← Statement.constructs_outlineOf, ← outline, outline_prune hfresh,
    Statement.constructs_map_bare, constructs, List.filterMap_filter, List.filter_filterMap]
  congr 1
  refine List.filterMap_congr fun s _ ↦ ?_
  cases s with
  | compound c => simp [Statement.survives, Statement.construct?, Option.filter]
  | _ => simp [Statement.construct?]

end Leaves

/-- Exactly the right statements survive. Of the leaves at all depths, in the order of the text, the
calls to the targets go and no others. Under `fill` and `keep` every construct stays, by its kind
and its span; under `remove` exactly those stay that bind a name or have a definition or a lasting
leaf inside. -/
theorem Tree.prune_survivors (targets : TargetSet) (policy : Policy) (tree : Tree)
    (htargets : targets.paths ≠ []) (hfresh : tree.IsFresh) :
    (tree.prune targets policy).1.body.leaves = tree.body.leaves.filter (!targets.isHit ·) ∧
    (policy ≠ .remove → (tree.prune targets policy).1.body.constructs.map Construct.bare =
      tree.body.constructs.map Construct.bare) ∧
    (policy = .remove → (tree.prune targets policy).1.body.constructs.map Construct.bare =
      (tree.body.constructs.filter (·.lasts targets)).map Construct.bare) := by
  have hbody : (tree.prune targets policy).1.body = (tree.body.prune targets policy).1 := by
    rw [prune, if_neg (by simpa using htargets)]
  have hconstructs : (tree.body.prune targets policy).1.constructs.map Construct.bare =
      (tree.body.constructs.filter fun c ↦ policy != .remove || c.lasts targets).map
        Construct.bare :=
    Block.constructs_prune hfresh.statements
  rw [hbody, Block.leaves_prune hfresh.statements]
  refine ⟨rfl, fun hpolicy ↦ ?_, fun hpolicy ↦ ?_⟩
  · have hstays : (policy != .remove) = true := bne_iff_ne.mpr hpolicy
    simpa [hstays] using hconstructs
  · simpa [hpolicy] using hconstructs

theorem Tree.prune_survivors_specimen :
    Python.readTree specimen = .ok specimenTree ∧
    (⟨["print"]⟩ : TargetSet).paths ≠ [] ∧ specimenTree.IsFresh ∧
    (specimenTree.prune ⟨["print"]⟩ .remove).1.body.leaves =
      specimenTree.body.leaves.filter (!TargetSet.isHit ⟨["print"]⟩ ·) ∧
    (specimenTree.prune ⟨["print"]⟩ .remove).1.body.constructs.map Construct.bare =
      (specimenTree.body.constructs.filter (·.lasts ⟨["print"]⟩)).map Construct.bare ∧
    specimenTree.body.constructs.map (·.lasts ⟨["print"]⟩) = [true, true, false] := by
  have htargets : (⟨["print"]⟩ : TargetSet).paths ≠ [] := by decide
  have hsurvivors :=
    Tree.prune_survivors ⟨["print"]⟩ .remove specimenTree htargets check_specimen.2.1
  exact ⟨readTree_specimen, htargets, check_specimen.2.1, hsurvivors.1, hsurvivors.2.2 rfl,
    by decide +kernel⟩

end Declutter
