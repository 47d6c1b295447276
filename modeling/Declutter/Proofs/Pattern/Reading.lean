import Declutter.Pattern.Parser
import Declutter.Proofs.Pattern.Language
/-!
Reading regular expressions that have no groups. A term is described by the text that it is read
from and the pattern that it is read as (`Pattern.IsTerm`); it may be put together from an atom and
a repetition (`Pattern.IsAtom`), and an atom from terms in parentheses (`Pattern.isAtom_group`). A
text that is made of terms is a valid expression, and is read as the patterns of its terms one after
the other (`Pattern.ofText_flatten`).
-/

set_option autoImplicit false
set_option relaxedAutoImplicit false

namespace Declutter.Pattern

variable {depth bound k : Nat} {p q : Pattern} {t rest : Text} {u v : CodeUnit}

/-- What is known of the groups of a pattern that has none. -/
def noGroups : Scope := ⟨[]⟩

theorem run_bind_of_run {α β : Type} {action : Read α} {s s' : Reading} {a : α}
    (h : action.run s = .ok (a, s')) (next : α → Read β) :
    (action >>= next).run s = (next a).run s' := by
  rw [StateT.run_bind, h]
  rfl

/-! ### Units -/

/-- The units that have a meaning of their own outside of a class. -/
def marks : Text := [42, 43, 63, 123, 92, 91, 40, 41, 124, 94, 36, 46]

theorem groupsOf_cons (h : u ∉ [92, 91, 40]) :
    groupsOf false (u :: rest) = groupsOf false rest := by
  simp only [List.mem_cons, List.not_mem_nil, or_false, not_or] at h
  have hclass : (u == CodeUnit.ofChar '[') = false := beq_eq_false_iff_ne.mpr h.2.1
  have hgroup : (u == CodeUnit.ofChar '(') = false := beq_eq_false_iff_ne.mpr h.2.2
  rw [groupsOf.eq_def]
  split
  · next hnil => cases hnil
  · next v after heq => exact absurd (List.cons.inj heq).1 h.1
  · next heq =>
    obtain ⟨rfl, rfl⟩ := List.cons.inj heq
    simp only [hclass, hgroup, Bool.false_eq_true, if_false]

theorem bounds?_cons (h : u ∉ [42, 43, 63, 123]) : bounds? (u :: rest) = none := by
  simp only [List.mem_cons, List.not_mem_nil, or_false, not_or] at h
  rw [bounds?]
  · rw [braces?]
    exact fun t ht ↦ absurd (List.cons.inj ht).1 h.2.2.2
  · exact fun t ht ↦ absurd (List.cons.inj ht).1 h.1
  · exact fun t ht ↦ absurd (List.cons.inj ht).1 h.2.1
  · exact fun t ht ↦ absurd (List.cons.inj ht).1 h.2.2.1

theorem beq_eq_false_of_isWordUnit (h : u.isWordUnit = false) (hv : v.isWordUnit = true) :
    (u == v) = false := by
  refine beq_eq_false_iff_ne.mpr ?_
  rintro rfl
  cases h.symm.trans hv

/-- A backslash before a unit that is no letter, digit or underscore makes the unit stand for
itself. -/
theorem run_escape (h : u.isWordUnit = false) :
    (escape noGroups).run ⟨92 :: u :: rest, 0⟩ = .ok (.one (.only u), ⟨rest, 0⟩) := by
  have hne (v : CodeUnit) (hv : v.isWordUnit = true) : (u == v) = false :=
    beq_eq_false_of_isWordUnit h hv
  have hdigit : u.isDigit = false := by
    rw [CodeUnit.isWordUnit, Bool.or_eq_false_iff, Bool.or_eq_false_iff] at h
    exact h.1.2
  have hoctal : (decide (CodeUnit.ofChar '0' ≤ u) && decide (u ≤ CodeUnit.ofChar '7')) = false := by
    rw [CodeUnit.isDigit, Bool.and_eq_false_iff, decide_eq_false_iff_not, decide_eq_false_iff_not]
      at hdigit
    rw [Bool.and_eq_false_iff, decide_eq_false_iff_not, decide_eq_false_iff_not]
    exact hdigit.imp_right fun hnine hseven ↦ hnine (UInt16.le_trans hseven (by decide))
  have hclass : classEscape? u = none := by
    simp only [classEscape?, hne 'd' (by decide), hne 'D' (by decide), hne 'w' (by decide),
      hne 'W' (by decide), hne 's' (by decide), hne 'S' (by decide), Bool.false_eq_true, if_false]
  have hunit : unitEscape noGroups false (u :: rest) = .ok (u, rest) := by
    simp only [unitEscape, hne 'f' (by decide), hne 'n' (by decide), hne 'r' (by decide),
      hne 't' (by decide), hne 'v' (by decide), hne 'c' (by decide), hne 'x' (by decide),
      hne 'u' (by decide), hne 'k' (by decide), hoctal, Bool.false_and,
      Bool.false_eq_true, if_false]
  rw [escape]
  simp only [StateT.run_bind, StateT.run_get, pure_bind, List.drop_succ_cons, List.drop_zero,
    List.takeWhile_cons, hdigit, hclass, hunit, Bool.false_eq_true, if_false, List.isEmpty_nil,
    Bool.not_true, Bool.and_false, Bool.false_and, hne 'k' (by decide)]
  rfl

/-! ### Repetitions -/

theorem head?_ne_of_bounds? (h : bounds? rest = none) : rest.head? ≠ some 63 := by
  cases rest with
  | nil => exact nofun
  | cons u rest =>
    rintro hu
    obtain rfl := Option.some.inj hu
    cases h

theorem run_quantified_of_none (h : bounds? rest = none) :
    (quantified true 0 p).run ⟨rest, 0⟩ = .ok (p, ⟨rest, 0⟩) := by
  rw [quantified]
  simp only [StateT.run_bind, StateT.run_get, pure_bind, h]
  rfl

theorem run_quantified_of_some {min : Nat} {max : Option Nat}
    (ht : bounds? t = some (min, max, rest)) (hmax : max.any (· < min) = false)
    (h : bounds? rest = none) :
    (quantified true 0 p).run ⟨t, 0⟩ = .ok (.repeated p min max true 1 0, ⟨rest, 0⟩) := by
  have hgreedy : (rest.head? == some (CodeUnit.ofChar '?')) = false :=
    beq_eq_false_iff_ne.mpr (head?_ne_of_bounds? h)
  rw [quantified]
  simp only [StateT.run_bind, StateT.run_get, pure_bind, ht, hmax, hgreedy, Bool.not_true,
    Bool.false_eq_true, if_false, Bool.not_false]
  rfl

/-! ### Terms -/

/-- In front of anything that does not start a repetition, the text is read as a term with the given
pattern, as soon as `k` parentheses may be opened. -/
structure IsTerm (k : Nat) (t : Text) (q : Pattern) : Prop where
  ne_nil : t ≠ []
  groupsOf_append : ∀ rest, groupsOf false (t ++ rest) = groupsOf false rest
  bounds?_append : ∀ rest, bounds? (t ++ rest) = none
  run_append : ∀ {depth : Nat}, k ≤ depth → ∀ (bound : Nat) (p : Pattern) {rest : Text},
    bounds? rest = none →
    (terms noGroups (disjunction noGroups depth) (bound + 1) p).run ⟨t ++ rest, 0⟩ =
      (terms noGroups (disjunction noGroups depth) bound (.sequence p q)).run ⟨rest, 0⟩

/-- The text is read as a pattern, and a repetition of the pattern may follow. -/
structure IsAtom (k : Nat) (t : Text) (q : Pattern) : Prop where
  ne_nil : t ≠ []
  groupsOf_append : ∀ rest, groupsOf false (t ++ rest) = groupsOf false rest
  bounds?_append : ∀ rest, bounds? (t ++ rest) = none
  run_append : ∀ {depth : Nat}, k ≤ depth → ∀ (bound : Nat) (p : Pattern) (rest : Text),
    (terms noGroups (disjunction noGroups depth) (bound + 1) p).run ⟨t ++ rest, 0⟩ =
      (do
        terms noGroups (disjunction noGroups depth) bound
          (.sequence p (← quantified true 0 q))).run ⟨rest, 0⟩

theorem IsTerm.mono {k' : Nat} (h : IsTerm k t q) (hk : k ≤ k') : IsTerm k' t q :=
  { h with run_append := fun hdepth ↦ h.run_append (hk.trans hdepth) }

namespace IsAtom

variable (h : IsAtom k t q)
include h

theorem isTerm : IsTerm k t q where
  ne_nil := h.ne_nil
  groupsOf_append := h.groupsOf_append
  bounds?_append := h.bounds?_append
  run_append hk bound p rest hrest := by
    rw [h.run_append hk, run_bind_of_run (run_quantified_of_none hrest)]

theorem star : IsTerm k (t ++ [42]) (.repeated q 0 none true 1 0) where
  ne_nil := List.append_ne_nil_of_left_ne_nil h.ne_nil _
  groupsOf_append rest := by
    rw [List.append_assoc, h.groupsOf_append]
    exact groupsOf_cons (by decide)
  bounds?_append rest := by rw [List.append_assoc, h.bounds?_append]
  run_append hk bound p rest hrest := by
    rw [List.append_assoc, h.run_append hk, List.singleton_append,
      run_bind_of_run (run_quantified_of_some rfl rfl hrest)]

theorem optional : IsTerm k (t ++ [63]) (.repeated q 0 (some 1) true 1 0) where
  ne_nil := List.append_ne_nil_of_left_ne_nil h.ne_nil _
  groupsOf_append rest := by
    rw [List.append_assoc, h.groupsOf_append]
    exact groupsOf_cons (by decide)
  bounds?_append rest := by rw [List.append_assoc, h.bounds?_append]
  run_append hk bound p rest hrest := by
    rw [List.append_assoc, h.run_append hk, List.singleton_append,
      run_bind_of_run (run_quantified_of_some rfl rfl hrest)]

end IsAtom

theorem isAtom_dot : IsAtom 0 [46] (.one .inLine) where
  ne_nil := List.cons_ne_nil _ _
  groupsOf_append rest := groupsOf_cons (by decide)
  bounds?_append rest := rfl
  run_append _ bound p rest := by
    rw [List.singleton_append, terms]
    simp only [StateT.run_bind, StateT.run_get, pure_bind]
    rfl

theorem isAtom_unit (h : u ∉ marks) : IsAtom 0 [u] (.one (.only u)) := by
  have hbounds (rest : Text) : bounds? (u :: rest) = none :=
    bounds?_cons fun hu ↦ h ((by decide : ([42, 43, 63, 123] : Text) ⊆ marks) hu)
  refine ⟨List.cons_ne_nil _ _, fun rest ↦ ?_, hbounds, fun _ bound p rest ↦ ?_⟩
  · exact groupsOf_cons fun hu ↦ h ((by decide : ([92, 91, 40] : Text) ⊆ marks) hu)
  · have hne : ∀ v ∈ marks, (u == v) = false :=
      fun v hv ↦ beq_eq_false_iff_ne.mpr fun huv ↦ h (huv ▸ hv)
    rw [List.singleton_append, terms]
    simp only [StateT.run_bind, StateT.run_get, pure_bind, hbounds, hne '|' (by decide),
      hne ')' (by decide), hne '^' (by decide), hne '$' (by decide), hne '\\' (by decide),
      hne '(' (by decide), hne '[' (by decide), hne '.' (by decide), Bool.or_self, Bool.false_and,
      Bool.false_eq_true, if_false, Option.isSome_none]
    rfl

theorem isAtom_escaped (h : u.isWordUnit = false) : IsAtom 0 [92, u] (.one (.only u)) where
  ne_nil := List.cons_ne_nil _ _
  groupsOf_append rest := rfl
  bounds?_append rest := rfl
  run_append _ bound p rest := by
    have hboundary : ((some u).any fun v ↦ v == CodeUnit.ofChar 'b' || v == CodeUnit.ofChar 'B') =
        false := by
      rw [Option.any_some, beq_eq_false_of_isWordUnit h (by decide),
        beq_eq_false_of_isWordUnit h (by decide), Bool.or_self]
    rw [List.cons_append, List.singleton_append, terms]
    simp only [StateT.run_bind, StateT.run_get, pure_bind, List.head?_cons, hboundary,
      Bool.and_false]
    exact run_bind_of_run (run_escape h) _

/-- The class of all units but a solidus. -/
theorem isAtom_class : IsAtom 0 [91, 94, 47, 93] (.one ⟨true, [.range 47 47]⟩) where
  ne_nil := List.cons_ne_nil _ _
  groupsOf_append rest := rfl
  bounds?_append rest := rfl
  run_append _ bound p rest := by
    have hclass : (unitClass noGroups).run ⟨91 :: 94 :: 47 :: 93 :: rest, 0⟩ =
        .ok (.one ⟨true, [.range 47 47]⟩, ⟨rest, 0⟩) := rfl
    simp only [List.cons_append, List.nil_append]
    rw [terms]
    simp only [StateT.run_bind, StateT.run_get, pure_bind]
    exact run_bind_of_run hclass _

theorem isTerm_start : IsTerm 0 [94] .start where
  ne_nil := List.cons_ne_nil _ _
  groupsOf_append rest := groupsOf_cons (by decide)
  bounds?_append rest := rfl
  run_append _ bound p rest _ := by
    rw [List.singleton_append, terms]
    simp only [StateT.run_bind, StateT.run_get, pure_bind]
    rfl

theorem isTerm_finish : IsTerm 0 [36] .finish where
  ne_nil := List.cons_ne_nil _ _
  groupsOf_append rest := groupsOf_cons (by decide)
  bounds?_append rest := rfl
  run_append _ bound p rest _ := by
    rw [List.singleton_append, terms]
    simp only [StateT.run_bind, StateT.run_get, pure_bind]
    rfl

/-! ### Sequences of terms -/

variable {ts : List Text} {qs : List Pattern}

/-- What ends a sequence of terms: the end of the text, or a closing parenthesis. -/
def Closes (rest : Text) : Prop := rest = [] ∨ rest.head? = some 41

theorem Closes.bounds?_eq (h : Closes rest) : bounds? rest = none := by
  rcases h with rfl | h
  · rfl
  · obtain ⟨after, rfl⟩ := List.head?_eq_some_iff.mp h
    rfl

theorem run_terms_of_closes (h : Closes rest) (bound : Nat) (p : Pattern) :
    (terms noGroups (disjunction noGroups depth) bound p).run ⟨rest, 0⟩ = .ok (p, ⟨rest, 0⟩) := by
  cases bound with
  | zero => rfl
  | succ bound =>
    rcases h with rfl | h
    · rfl
    · obtain ⟨after, rfl⟩ := List.head?_eq_some_iff.mp h
      rw [terms]
      rfl

section Terms

variable (h : List.Forall₂ (IsTerm k) ts qs)
include h

theorem bounds?_flatten (hrest : bounds? rest = none) : bounds? (ts.flatten ++ rest) = none := by
  cases h with
  | nil => exact hrest
  | cons hterm _ =>
    rw [List.flatten_cons, List.append_assoc]
    exact hterm.bounds?_append _

theorem groupsOf_flatten (rest : Text) :
    groupsOf false (ts.flatten ++ rest) = groupsOf false rest := by
  induction h with
  | nil => rfl
  | cons hterm _ ih => rw [List.flatten_cons, List.append_assoc, hterm.groupsOf_append, ih]

theorem length_le_flatten : ts.length ≤ ts.flatten.length := by
  induction h with
  | nil => exact Nat.le_refl 0
  | cons hterm _ ih =>
    rw [List.length_cons, List.flatten_cons, List.length_append]
    have hpos := List.length_pos_iff.mpr hterm.ne_nil
    omega

/-- Terms are read one after the other. -/
theorem run_terms_flatten (hk : k ≤ depth) (hrest : Closes rest) (hbound : ts.length ≤ bound)
    (p : Pattern) :
    (terms noGroups (disjunction noGroups depth) bound p).run ⟨ts.flatten ++ rest, 0⟩ =
      .ok (chain p qs, ⟨rest, 0⟩) := by
  induction h generalizing bound p with
  | nil => exact run_terms_of_closes hrest bound p
  | cons hterm hterms ih =>
    rw [List.length_cons] at hbound
    obtain ⟨bound, rfl⟩ := Nat.exists_eq_succ_of_ne_zero (Nat.ne_zero_of_lt hbound)
    have hnext := bounds?_flatten hterms hrest.bounds?_eq
    rw [List.flatten_cons, List.append_assoc, hterm.run_append hk bound p hnext]
    exact ih (Nat.le_of_succ_le_succ hbound) _

theorem run_disjunction_flatten (hk : k ≤ depth) (hrest : Closes rest) :
    (disjunction noGroups (depth + 1)).run ⟨ts.flatten ++ rest, 0⟩ =
      .ok (chain empty qs, ⟨rest, 0⟩) := by
  have hbound : ts.length ≤ (ts.flatten ++ rest).length + 1 := by
    have hlength := length_le_flatten h
    rw [List.length_append]
    omega
  have hterms := run_terms_flatten h hk hrest hbound empty
  rw [disjunction]
  simp only [StateT.run_bind, StateT.run_get, pure_bind]
  rw [alternatives]
  simp only [StateT.run_bind, StateT.run_get, pure_bind, hterms]
  rcases hrest with rfl | hrest
  · rfl
  · obtain ⟨after, rfl⟩ := List.head?_eq_some_iff.mp hrest
    rfl

/-- Terms in parentheses that count no group. -/
theorem isAtom_group : IsAtom (k + 1) ([40, 63, 58] ++ ts.flatten ++ [41]) (chain empty qs) where
  ne_nil := List.cons_ne_nil _ _
  groupsOf_append rest := by
    have hopen : groupsOf false ([40, 63, 58] ++ (ts.flatten ++ ([41] ++ rest))) =
        groupsOf false (ts.flatten ++ ([41] ++ rest)) := rfl
    rw [List.append_assoc, List.append_assoc, hopen, groupsOf_flatten h]
    exact groupsOf_cons (by decide)
  bounds?_append rest := rfl
  run_append hdepth bound p rest := by
    obtain ⟨depth, rfl⟩ := Nat.exists_eq_succ_of_ne_zero (Nat.ne_zero_of_lt hdepth)
    have hinner : (disjunction noGroups (depth + 1)).run ⟨ts.flatten ++ 41 :: rest, 0⟩ =
        .ok (chain empty qs, ⟨41 :: rest, 0⟩) :=
      run_disjunction_flatten h (Nat.le_of_succ_le_succ hdepth) (.inr rfl)
    have hgroup : (parenthesis (disjunction noGroups (depth + 1))).run
        ⟨40 :: 63 :: 58 :: (ts.flatten ++ 41 :: rest), 0⟩ =
          .ok ((chain empty qs, true), ⟨rest, 0⟩) := by
      have hopen : (parenthesis (disjunction noGroups (depth + 1))).run
            ⟨40 :: 63 :: 58 :: (ts.flatten ++ 41 :: rest), 0⟩ =
          (do return (← closed (disjunction noGroups (depth + 1)), true)).run
            ⟨ts.flatten ++ 41 :: rest, 0⟩ := rfl
      rw [hopen, StateT.run_bind, closed, run_bind_of_run hinner]
      rfl
    simp only [List.cons_append, List.nil_append, List.append_assoc]
    rw [terms]
    simp only [StateT.run_bind, StateT.run_get, pure_bind]
    exact run_bind_of_run hgroup _

/-- A text that is made of terms is a regular expression. -/
theorem ofText_flatten (hk : k ≤ ts.flatten.length) : ofText ts.flatten = .ok (chain empty qs) := by
  have hgroups : groupsOf false ts.flatten = [] := by
    rw [← List.append_nil ts.flatten, groupsOf_flatten h]
    rfl
  have hread : (disjunction noGroups (ts.flatten.length + 1)).run ⟨ts.flatten ++ [], 0⟩ =
      .ok (chain empty qs, ⟨[], 0⟩) := run_disjunction_flatten h hk (.inl rfl)
  rw [List.append_nil] at hread
  rw [ofText, hgroups]
  dsimp only
  rw [← noGroups, hread]
  rfl

end Terms

end Declutter.Pattern
