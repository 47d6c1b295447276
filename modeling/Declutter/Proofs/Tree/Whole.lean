import Declutter.Proofs.Tree.Survival
import Mathlib.Data.List.Sublists
/-!
Pruning keeps a tree grammatical. A whole construct has clauses whose roles the grammar gives to its
kind, and in the block of each clause a statement and no mark of having been emptied. Unless emptied
blocks are kept, pruning a tree of whole constructs leaves a tree of whole constructs
(`Tree.prune_isWhole`).

Settling a construct only takes clauses away, so that the roles that are left are a sublist of those
before. The clauses on which its kind rests can never go: the primary clause, handlers, cases, and
the cleanup of an attempt without a handler. A clause that is filled finds an excised statement to
stand for, since a block is marked as emptied only when something was taken from it.
-/

set_option autoImplicit false
set_option relaxedAutoImplicit false

namespace Declutter

open scoped List

/-! ### Whole constructs -/

/-- A construct whose clauses have roles that its kind admits, each with a block that holds a
statement and is not marked as emptied. -/
structure Construct.IsWhole (c : Construct) : Prop where
  grammatical : c.isGrammatical = true
  statements : ∀ cl ∈ c.clauses, cl.body.statements ≠ []
  unmarked : ∀ cl ∈ c.clauses, cl.body.emptied = false

instance (c : Construct) : Decidable c.IsWhole :=
  decidable_of_iff
    (c.isGrammatical = true ∧ (∀ cl ∈ c.clauses, cl.body.statements ≠ []) ∧
      ∀ cl ∈ c.clauses, cl.body.emptied = false)
    ⟨fun ⟨h₁, h₂, h₃⟩ ↦ ⟨h₁, h₂, h₃⟩, fun ⟨h₁, h₂, h₃⟩ ↦ ⟨h₁, h₂, h₃⟩⟩

/-- A statement that, if it is compound, is a whole construct. -/
def Statement.IsWhole : Statement → Prop
  | .compound c => c.IsWhole
  | .expression .. | .placeholder _ | .inert .. => True

instance : (s : Statement) → Decidable s.IsWhole
  | .compound c => inferInstanceAs (Decidable c.IsWhole)
  | .expression .. | .placeholder _ | .inert .. => inferInstanceAs (Decidable True)

/-- Every construct of the tree, at any depth, is whole. Nothing is said of the block of the module,
which may be empty. -/
def Tree.IsWhole (tree : Tree) : Prop := ∀ s ∈ tree.body.all, s.IsWhole

instance (tree : Tree) : Decidable tree.IsWhole :=
  inferInstanceAs (Decidable (∀ s ∈ tree.body.all, s.IsWhole))

/-! ### Roles after settling -/

theorem Clause.role_fill (cl : Clause) : cl.fill.1.role = cl.role := by
  rw [fill]
  split <;> rfl

/-- What is left of a list from its first element that is not skipped on is a sublist again. -/
theorem sublist_dropWhile {α : Type} {l₁ l₂ : List α} (h : l₁ <+ l₂) (p : α → Bool) :
    l₁.dropWhile p <+ l₂.dropWhile p := by
  induction h with
  | slnil => exact .slnil
  | cons a h ih =>
    rw [List.dropWhile_cons]
    split_ifs
    · exact ih
    · exact ((List.dropWhile_sublist p).trans h).cons a
  | cons_cons a h ih =>
    rw [List.dropWhile_cons, List.dropWhile_cons]
    split_ifs
    · exact ih
    · exact h.cons_cons a

theorem Role.contains_orElse_iff {roles : List Role} :
    [[], [Role.orElse]].contains roles = true ↔ roles <+ [.orElse] := by
  rw [← List.mem_sublists, List.contains_iff_mem]
  rfl

theorem Role.contains_orElse_cleanup_iff {roles : List Role} :
    [[], [Role.orElse], [.cleanup], [.orElse, .cleanup]].contains roles = true ↔
      roles <+ [.orElse, .cleanup] := by
  rw [← List.mem_sublists, List.contains_iff_mem]
  rfl

namespace Settles

variable {policy : Policy} {handled : Bool} {before after : List Clause}

/-- Settling takes clauses away and leaves the others in their roles and in their order. -/
theorem roles_sublist (h : Settles policy handled before after) :
    after.map (·.role) <+ before.map (·.role) := by
  induction h with
  | nil => exact .slnil
  | keep _ _ ih => exact ih.cons_cons _
  | @fill c _ _ _ _ _ ih =>
    rw [List.map_cons, List.map_cons, c.role_fill]
    exact ih.cons_cons _
  | drop _ _ _ _ ih => exact ih.cons _

/-- A first clause that cannot go is still the first one. -/
theorem exists_cons {c : Clause} (h : Settles policy handled (c :: before) after)
    (hstays : ∀ trailing, c.role.canGo trailing handled = false) :
    ∃ d rest, after = d :: rest ∧ d.role = c.role ∧ Settles policy handled before rest := by
  cases h with
  | keep _ rest => exact ⟨c, _, rfl, rfl, rest⟩
  | fill _ _ rest => exact ⟨_, _, rfl, c.role_fill, rest⟩
  | drop _ _ guard _ =>
    rw [hstays] at guard
    exact Bool.noConfusion guard

/-- Clauses that cannot go are all still there. -/
theorem roles_eq (h : Settles policy handled before after)
    (hstays : ∀ c ∈ before, ∀ trailing, c.role.canGo trailing handled = false) :
    after.map (·.role) = before.map (·.role) := by
  induction before generalizing after with
  | nil =>
    cases h
    rfl
  | cons c before ih =>
    rw [List.forall_mem_cons] at hstays
    obtain ⟨d, rest, rfl, hrole, hrest⟩ := h.exists_cons hstays.1
    rw [List.map_cons, List.map_cons, hrole, ih hrest hstays.2]

end Settles

/-! ### Roles that a kind admits -/

namespace ConstructKind

theorem admits_loop_iff {kind : ConstructKind} (hkind : kind = .forLoop ∨ kind = .whileLoop)
    {role : Role} {roles : List Role} :
    kind.admits (role :: roles) = true ↔ role = .primary ∧ roles <+ [.orElse] := by
  rw [← Role.contains_orElse_iff]
  rcases hkind with rfl | rfl <;> cases role <;> simp [admits]

theorem admits_attempt_iff {role : Role} {roles : List Role} :
    attempt.admits (role :: roles) = true ↔ role = .primary ∧
      (roles = [.cleanup] ∨
        ∃ rest, roles = .handler :: rest ∧
        rest.dropWhile (· = .handler) <+ [.orElse, .cleanup]) := by
  simp only [← Role.contains_orElse_cleanup_iff]
  cases role with
  | primary =>
    match roles with
    | [] => simp [admits]
    | .handler :: rest => simp [admits]
    | .primary :: rest | .elif :: rest | .orElse :: rest | .cleanup :: rest | .case :: rest =>
      simp [admits]
  | _ => simp [admits]

end ConstructKind

namespace Settles

variable {policy : Policy} {handled : Bool} {before after : List Clause}

/-- What settling leaves of a grammatical construct is grammatical. -/
theorem admits {kind : ConstructKind} (h : Settles policy handled before after)
    (hhandled : handled = before.any (·.role = .handler))
    (hadmits : kind.admits (before.map (·.role)) = true) :
    kind.admits (after.map (·.role)) = true := by
  have hprimary : ∀ {c : Clause}, c.role = .primary → ∀ trailing,
      c.role.canGo trailing handled = false := by
    intro c hrole trailing
    rw [hrole]
    rfl
  cases before with
  | nil =>
    cases h
    exact hadmits
  | cons c before =>
    have hloop : kind = .forLoop ∨ kind = .whileLoop → kind.admits (after.map (·.role)) = true := by
      intro hkind
      rw [List.map_cons, ConstructKind.admits_loop_iff hkind] at hadmits
      obtain ⟨d, rest, rfl, hrole, hrest⟩ := h.exists_cons (hprimary hadmits.1)
      rw [List.map_cons, ConstructKind.admits_loop_iff hkind, hrole]
      exact ⟨hadmits.1, hrest.roles_sublist.trans hadmits.2⟩
    have hsole : (c :: before).map (·.role) = [.primary] → after.map (·.role) = [.primary] := by
      intro hroles
      rw [← hroles]
      refine h.roles_eq fun d hd ↦ hprimary (List.mem_singleton.mp ?_)
      rw [← hroles]
      exact List.mem_map_of_mem hd
    cases kind with
    | conditional =>
      obtain ⟨roles, hcons, hroles⟩ := ConstructKind.admits_conditional hadmits
      rw [List.map_cons, List.cons.injEq] at hcons
      obtain ⟨d, rest, rfl, hrole, hrest⟩ := h.exists_cons (hprimary hcons.1)
      rw [← hcons.2, Role.contains_orElse_iff] at hroles
      rw [List.map_cons, hrole, hcons.1, ConstructKind.admits, Role.contains_orElse_iff]
      exact (sublist_dropWhile hrest.roles_sublist _).trans hroles
    | forLoop => exact hloop (.inl rfl)
    | whileLoop => exact hloop (.inr rfl)
    | attempt =>
      rw [List.map_cons, ConstructKind.admits_attempt_iff] at hadmits
      obtain ⟨d, rest, rfl, hrole, hrest⟩ := h.exists_cons (hprimary hadmits.1)
      rw [List.map_cons, ConstructKind.admits_attempt_iff, hrole]
      refine ⟨hadmits.1, hadmits.2.imp (fun hcleanup ↦ ?_) ?_⟩
      · -- there is no handler, so the cleanup stays
        have hcleanups : ∀ e ∈ before, e.role = .cleanup := fun e he ↦
          List.mem_singleton.mp (hcleanup ▸ List.mem_map_of_mem he)
        have hunhandled : handled = false := by
          rw [hhandled, List.any_cons, hadmits.1, List.any_eq_false.mpr]
          · rfl
          · intro e he
            rw [hcleanups e he]
            decide
        rw [← hcleanup]
        refine hrest.roles_eq fun e he trailing ↦ ?_
        rw [hcleanups e he, hunhandled]
        rfl
      · rintro ⟨roles, hroles, htail⟩
        obtain ⟨e, before, rfl, he, rfl⟩ := List.map_eq_cons_iff.mp hroles
        obtain ⟨f, rest, rfl, hf, hrest⟩ := hrest.exists_cons fun trailing ↦ by rw [he]; rfl
        refine ⟨rest.map (·.role), ?_, (sublist_dropWhile hrest.roles_sublist _).trans htail⟩
        rw [List.map_cons, hf, he]
    | context => exact decide_eq_true (hsole (of_decide_eq_true hadmits))
    | function => exact decide_eq_true (hsole (of_decide_eq_true hadmits))
    | classBody => exact decide_eq_true (hsole (of_decide_eq_true hadmits))
    | selection =>
      rwa [h.roles_eq]
      intro d hd trailing
      rw [ConstructKind.admits_selection hadmits _ (List.mem_map_of_mem hd)]
      rfl

/-- What holds of every statement in the clauses and of placeholders holds of every statement
afterwards. -/
theorem forall_statements {P : Statement → Prop} (h : Settles policy handled before after)
    (hplaceholder : ∀ span, P (.placeholder span))
    (hbefore : ∀ c ∈ before, ∀ s ∈ c.body.statements, P s) :
    ∀ c ∈ after, ∀ s ∈ c.body.statements, P s := by
  induction h with
  | nil => exact hbefore
  | keep _ _ ih =>
    rw [List.forall_mem_cons] at hbefore
    exact List.forall_mem_cons.mpr ⟨hbefore.1, ih hbefore.2⟩
  | @fill c _ _ _ _ _ ih =>
    rw [List.forall_mem_cons] at hbefore
    refine List.forall_mem_cons.mpr ⟨?_, ih hbefore.2⟩
    rw [Clause.fill]
    split
    · exact hbefore.1
    · exact List.forall_mem_singleton.mpr (hplaceholder _)
  | drop _ _ _ _ ih => exact ih (List.forall_mem_cons.mp hbefore).2

/-- Unless they are kept, no emptied block is left: a clause that stays has statements, and a clause
that is filled finds a place for its placeholder. -/
theorem forall_filled (h : Settles policy handled before after) (hpolicy : policy ≠ .keep)
    (hfull : ∀ c ∈ before, c.body.emptied = false → c.body.statements ≠ [])
    (hexcised : ∀ c ∈ before, c.body.emptied = true → c.body.excised ≠ []) :
    ∀ c ∈ after, c.body.statements ≠ [] ∧ c.body.emptied = false := by
  induction h with
  | nil => exact fun _ hc ↦ nomatch hc
  | @keep c _ _ guard _ ih =>
    rw [List.forall_mem_cons] at hfull hexcised
    have hunmarked : c.body.emptied = false := guard.resolve_right hpolicy
    exact List.forall_mem_cons.mpr ⟨⟨hfull.1 hunmarked, hunmarked⟩, ih hfull.2 hexcised.2⟩
  | @fill c _ _ emptied _ _ ih =>
    rw [List.forall_mem_cons] at hfull hexcised
    refine List.forall_mem_cons.mpr ⟨?_, ih hfull.2 hexcised.2⟩
    obtain ⟨anchor, rest, hcons⟩ := List.exists_cons_of_ne_nil (hexcised.1 emptied)
    rw [Clause.fill, hcons]
    exact ⟨List.cons_ne_nil _ _, rfl⟩
  | drop _ _ _ _ ih =>
    rw [List.forall_mem_cons] at hfull hexcised
    exact ih hfull.2 hexcised.2

end Settles

/-! ### Pruning -/

/-- A block is marked as emptied only if something was taken from it. -/
theorem Block.excised_ne_nil_of_emptied {targets : TargetSet} {policy : Policy} {b : Block}
    (h : (b.prune targets policy).1.emptied = true) : (b.prune targets policy).1.excised ≠ [] := by
  obtain ⟨span, statements, excised, emptied⟩ := b
  rw [prune] at h ⊢
  simp only [Bool.and_eq_true, Bool.not_eq_true', List.isEmpty_eq_false_iff] at h
  exact List.append_ne_nil_of_right_ne_nil _ h.1

section Pruning

variable {targets : TargetSet} {policy : Policy}

/-- What is left of a whole construct is whole. -/
theorem Construct.IsWhole.prune {c d : Construct} (hc : c.IsWhole) (hpolicy : policy ≠ .keep)
    (h : ((c.pruneInner targets policy).settle policy).1 = some d) : d.IsWhole := by
  obtain ⟨hkind, -, hsettles⟩ := settles_of_settle h
  have hroles : (c.pruneInner targets policy).clauses.map (·.role) = c.clauses.map (·.role) := by
    rw [pruneInner, List.map_map]
    exact List.map_congr_left fun cl _ ↦ cl.role_prune targets policy
  have hfilled := hsettles.forall_filled hpolicy
    (List.forall_mem_map.mpr fun cl hcl hunmarked hnil ↦ by
      rw [Clause.body_prune] at hunmarked hnil
      have hemptied := (cl.body.emptied_prune targets policy).mpr ⟨hc.statements cl hcl, hnil⟩
      exact Bool.noConfusion (hunmarked.symm.trans hemptied))
    (List.forall_mem_map.mpr fun cl hcl hemptied ↦ by
      rw [Clause.body_prune] at hemptied ⊢
      exact Block.excised_ne_nil_of_emptied hemptied)
  refine ⟨?_, fun cl hcl ↦ (hfilled cl hcl).1, fun cl hcl ↦ (hfilled cl hcl).2⟩
  rw [isGrammatical, hkind]
  exact hsettles.admits rfl (hroles.symm ▸ hc.grammatical)

/-- Every construct in what is left of a statement is whole, if every construct in the statement
is. -/
theorem Statement.forall_isWhole_prune (s : Statement) (hpolicy : policy ≠ .keep)
    (hwhole : ∀ t ∈ s.all, t.IsWhole) :
    ∀ kept ∈ (s.prune targets policy).1, ∀ t ∈ kept.all, t.IsWhole := by
  induction s using Statement.induct with
  | expression span value =>
    rw [prune]
    split_ifs <;> simp [IsWhole]
  | placeholder span => simp [prune, IsWhole]
  | inert span type => simp [prune, IsWhole]
  | compound c ih =>
    obtain ⟨hc, hinner⟩ := forall_all_compound.mp hwhole
    rw [fst_prune_compound]
    intro kept hkept
    obtain ⟨d, hsettle, rfl⟩ := Option.map_eq_some_iff.mp hkept
    rw [forall_all_compound]
    refine ⟨Construct.IsWhole.prune hc hpolicy hsettle, ?_⟩
    obtain ⟨-, -, hsettles⟩ := Construct.settles_of_settle hsettle
    refine hsettles.forall_statements (fun span ↦ by simp [IsWhole]) ?_
    rw [Construct.pruneInner, List.forall_mem_map]
    intro cl hcl t ht
    rw [Clause.body_prune, Block.statements_prune] at ht
    obtain ⟨s, hs, hprune⟩ := List.mem_filterMap.mp ht
    exact ih cl hcl s hs (hinner cl hcl s hs) t hprune

end Pruning

/-- Pruning keeps a tree grammatical: unless emptied blocks are kept, every construct of the pruned
tree has clauses in roles that its kind admits, and every clause has a statement in its block, which
is not marked as emptied, if that holds of the tree. -/
theorem Tree.prune_isWhole (targets : TargetSet) (policy : Policy) (tree : Tree)
    (hpolicy : policy ≠ .keep) (hwhole : tree.IsWhole) : (tree.prune targets policy).1.IsWhole := by
  rw [prune]
  split_ifs with htargets
  · exact hwhole
  · rw [IsWhole, Block.forall_all]
    intro kept hkept
    rw [Block.statements_prune] at hkept
    obtain ⟨s, hs, hprune⟩ := List.mem_filterMap.mp hkept
    exact s.forall_isWhole_prune hpolicy (Block.forall_all.mp hwhole s hs) kept hprune

theorem Tree.prune_isWhole_specimen :
    Python.readTree specimen = .ok specimenTree ∧ specimenTree.IsWhole ∧
    (specimenTree.prune ⟨["print"]⟩ .remove).1.IsWhole ∧
    ((specimenTree.prune ⟨["print"]⟩ .remove).1.body.constructs.map fun c ↦
      c.clauses.map (·.role)) = [[Role.primary, .orElse], [.primary, .handler]] := by
  have hwhole : specimenTree.IsWhole := by decide +kernel
  exact ⟨readTree_specimen, hwhole, Tree.prune_isWhole _ _ _ (by decide) hwhole, by decide +kernel⟩

end Declutter
