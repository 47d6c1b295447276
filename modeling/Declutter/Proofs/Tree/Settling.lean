import Declutter.Tree.Settle
import Mathlib.Tactic.SplitIfs
/-!
What settling does to a construct, said once. `Settles` relates the clauses before and after, clause
by clause: a clause stays, is filled, or is dropped, and the relation holds the guard of each step.
A construct goes as a whole only under `remove`, when it binds no name and nothing is left in any of
its clauses (`Construct.settle_eq_none_iff`); otherwise its kind and span stay and its clauses
settle (`Construct.settles_of_settle`).
-/

set_option autoImplicit false
set_option relaxedAutoImplicit false

namespace Declutter

/-- The clauses of a construct before and after settling. Whether a clause can go depends on the
clauses after it, of which only those that are still there count. -/
inductive Settles (policy : Policy) (handled : Bool) : List Clause → List Clause → Prop where
  | nil : Settles policy handled [] []
  | keep {c : Clause} {before after : List Clause}
      (guard : c.body.emptied = false ∨ policy = .keep)
        (rest : Settles policy handled before after) :
      Settles policy handled (c :: before) (c :: after)
  | fill {c : Clause} {before after : List Clause} (emptied : c.body.emptied = true)
      (guard : policy = .fill ∨
        policy = .remove ∧ c.role.canGo after.isEmpty handled = false)
      (rest : Settles policy handled before after) :
      Settles policy handled (c :: before) (c.fill.1 :: after)
  | drop {c : Clause} {before after : List Clause} (emptied : c.body.emptied = true)
      (isRemove : policy = .remove) (guard : c.role.canGo after.isEmpty handled = true)
      (rest : Settles policy handled before after) :
      Settles policy handled (c :: before) after

namespace Settles

variable {policy : Policy} {handled : Bool}

/-- Clauses of which none is emptied settle as they are. -/
theorem of_none_emptied {clauses : List Clause} (h : ∀ c ∈ clauses, c.body.emptied = false) :
    Settles policy handled clauses clauses := by
  induction clauses with
  | nil => exact .nil
  | cons c rest ih =>
    rw [List.forall_mem_cons] at h
    exact .keep (.inl h.1) (ih h.2)

theorem of_keep (clauses : List Clause) : Settles .keep handled clauses clauses := by
  induction clauses with
  | nil => exact .nil
  | cons c rest ih => exact .keep (.inr rfl) ih

theorem map_fillEmptied (clauses : List Clause) :
    Settles .fill handled clauses (clauses.map fun c ↦ c.fillEmptied.1) := by
  induction clauses with
  | nil => exact .nil
  | cons c rest ih =>
    rw [List.map_cons, Clause.fillEmptied]
    split
    · next h => exact .fill h (.inl rfl) ih
    · next h => exact .keep (.inl (eq_false_of_ne_true h)) ih

/-- Dropping keeps a record of whether a clause after the one in hand is still there. -/
theorem trailing_dropFrom (clauses : List Clause) :
    (Construct.dropFrom handled clauses).trailing =
      (Construct.dropFrom handled clauses).kept.isEmpty := by
  induction clauses with
  | nil => rfl
  | cons c rest ih =>
    rw [Construct.dropFrom]
    dsimp only
    split_ifs
    · rfl
    · exact ih
    · rfl

theorem kept_dropFrom (clauses : List Clause) :
    Settles .remove handled clauses (Construct.dropFrom handled clauses).kept := by
  induction clauses with
  | nil => exact .nil
  | cons c rest ih =>
    have htrailing : (Construct.dropFrom handled rest).trailing =
        (Construct.dropFrom handled rest).kept.isEmpty := trailing_dropFrom rest
    rw [Construct.dropFrom]
    dsimp only
    split_ifs with hemptied hgo
    · exact .keep (.inl (by simpa using hemptied)) ih
    · exact .drop (by simpa using hemptied) rfl (htrailing ▸ hgo) ih
    · exact .fill (by simpa using hemptied)
        (.inr ⟨rfl, htrailing ▸ eq_false_of_ne_true hgo⟩) ih

end Settles

namespace Construct

theorem emptiedCount_eq_zero_iff {c : Construct} :
    c.emptiedCount = 0 ↔ ∀ cl ∈ c.clauses, cl.body.emptied = false := by
  simp [emptiedCount, List.filter_eq_nil_iff]

/-- A construct goes only under `remove`, and then exactly if removal has emptied it, it binds no
name and no statement is left in any clause. -/
theorem settle_eq_none_iff {policy : Policy} {c : Construct} :
    (c.settle policy).1 = none ↔
      policy = .remove ∧ c.emptiedCount ≠ 0 ∧ c.kind.bindsName = false ∧
        ∀ cl ∈ c.clauses, cl.body.statements = [] := by
  unfold settle
  split_ifs with hcount
  · simp [hcount]
  · cases policy with
    | fill => simp
    | keep => simp
    | remove =>
      simp only [discardEmptied]
      split_ifs with hall
      · simp only [Bool.and_eq_true, List.all_eq_true, List.isEmpty_iff, Bool.not_eq_true'] at hall
        exact iff_of_true rfl ⟨trivial, hcount, hall.2, hall.1⟩
      · simp only [Bool.and_eq_true, List.all_eq_true, List.isEmpty_iff, Bool.not_eq_true',
          not_and] at hall
        simp only [true_and, false_iff, not_and]
        intro _ hbinds hempty
        exact hall hempty hbinds

theorem settles_of_settle {policy : Policy} {c d : Construct} (h : (c.settle policy).1 = some d) :
    d.kind = c.kind ∧ d.span = c.span ∧ Settles policy c.isHandled c.clauses d.clauses := by
  unfold settle at h
  split_ifs at h with hcount
  · obtain rfl := Option.some.inj h
    exact ⟨rfl, rfl, .of_none_emptied (emptiedCount_eq_zero_iff.mp hcount)⟩
  · cases policy with
    | fill =>
      obtain rfl := Option.some.inj h
      refine ⟨rfl, rfl, ?_⟩
      have hfill : Settles .fill c.isHandled c.clauses (c.clauses.map fun cl ↦ cl.fillEmptied.1) :=
        Settles.map_fillEmptied c.clauses
      simpa [fillEmptied, List.map_map, Function.comp_def] using hfill
    | keep =>
      obtain rfl := Option.some.inj h
      exact ⟨rfl, rfl, .of_keep _⟩
    | remove =>
      simp only [discardEmptied] at h
      split_ifs at h with hall
      obtain rfl := Option.some.inj h
      exact ⟨rfl, rfl, .kept_dropFrom _⟩

end Construct

end Declutter
