import Declutter.Pattern.Basic
import Mathlib.Computability.Language
/-!
The languages of regular expressions. A pattern recognizes a language if, at every place and
whatever is to follow, it finds its way over the texts of the language and over no others
(`Pattern.Recognizes`). Units, sequences, repetitions without an upper bound and optional patterns
recognize what their parts do, put together as languages are (`Pattern.Recognizes.sequence`,
`Pattern.Recognizes.star`, `Pattern.Recognizes.optional`). Held at both ends of a text, a sequence
of patterns matches the texts of its language (`Pattern.occursIn_chain_iff`).
-/

set_option autoImplicit false
set_option relaxedAutoImplicit false

open scoped Computability

namespace Declutter

/-! ### Classes of units -/

namespace UnitClass

/-- The units of a class, each for itself. -/
def language (units : UnitClass) : Language CodeUnit := {x | ∃ u, units.holds u = true ∧ x = [u]}

theorem nil_not_mem_language (units : UnitClass) : [] ∉ units.language :=
  fun ⟨_, _, hnil⟩ ↦ List.cons_ne_nil _ _ hnil.symm

theorem mem_kstar_language {units : UnitClass} {x : Text} :
    x ∈ units.language∗ ↔ ∀ u ∈ x, units.holds u = true := by
  rw [Language.mem_kstar]
  constructor
  · rintro ⟨pieces, rfl, hpieces⟩ u hu
    obtain ⟨piece, hpiece, hu⟩ := List.mem_flatten.mp hu
    obtain ⟨v, hv, rfl⟩ := hpieces piece hpiece
    rwa [List.mem_singleton.mp hu]
  · intro h
    refine ⟨x.map ([·]), by rw [← List.flatMap_def, List.flatMap_singleton'], fun piece hpiece ↦ ?_⟩
    obtain ⟨u, hu, rfl⟩ := List.mem_map.mp hpiece
    exact ⟨u, h u hu, rfl⟩

theorem holds_only (u v : CodeUnit) : (only u).holds v = true ↔ v = u := by
  simp only [only, holds, List.any_cons, List.any_nil, ClassItem.holds, Bool.or_false,
    Bool.bne_false, Bool.and_eq_true, decide_eq_true_eq]
  exact ⟨fun ⟨hle, hge⟩ ↦ UInt16.le_antisymm hge hle,
    fun h ↦ ⟨h ▸ UInt16.le_refl u, h ▸ UInt16.le_refl v⟩⟩

theorem holds_except (u v : CodeUnit) : holds ⟨true, [.range u u]⟩ v = true ↔ v ≠ u := by
  have honly := holds_only u v
  simp only [only, holds, Bool.bne_false, Bool.bne_true, Bool.not_eq_true'] at honly ⊢
  rw [Ne, ← honly, Bool.not_eq_true]

theorem holds_inLine (u : CodeUnit) : inLine.holds u = true ↔ u.isLineTerminator = false := by
  simp only [inLine, holds, List.any_cons, List.any_nil, ClassItem.holds, Bool.or_false,
    Bool.bne_true, CodeUnit.isLineTerminator, Bool.not_eq_true', Bool.or_eq_false_iff,
    Bool.and_eq_false_iff, decide_eq_false_iff_not, beq_eq_false_iff_ne, UInt16.not_le]
  grind

end UnitClass

namespace Pattern

/-! ### Places -/

namespace Place

variable {s s' : Place} {x y : Text}

theorem over?_nil (s : Place) : s.over? true [] = some s := rfl

theorem over?_eq_some_iff : s.over? true x = some s' ↔
    s.ahead = x ++ s'.ahead ∧ s'.behind = x.reverse ++ s.behind ∧ s'.groups = s.groups := by
  rw [over?, if_pos rfl]
  constructor
  · intro h
    split_ifs at h with hprefix
    obtain ⟨rest, hrest⟩ := List.isPrefixOf_iff_prefix.mp hprefix
    obtain rfl := Option.some.inj h
    exact ⟨by rw [← hrest, List.drop_left], rfl, rfl⟩
  · rintro ⟨hahead, hbehind, hgroups⟩
    rw [hahead, if_pos (List.isPrefixOf_iff_prefix.mpr (List.prefix_append x _)),
      List.drop_left, ← hbehind, ← hgroups]

theorem over?_append_eq_some_iff : s.over? true (x ++ y) = some s' ↔
    ∃ t, s.over? true x = some t ∧ t.over? true y = some s' := by
  simp only [over?_eq_some_iff]
  constructor
  · rintro ⟨hahead, hbehind, hgroups⟩
    rw [List.append_assoc] at hahead
    rw [List.reverse_append, List.append_assoc] at hbehind
    exact ⟨⟨x.reverse ++ s.behind, y ++ s'.ahead, s.groups⟩, ⟨hahead, rfl, rfl⟩, rfl,
      hbehind, hgroups⟩
  · rintro ⟨t, ⟨hahead, hbehind, hgroups⟩, hahead', hbehind', hgroups'⟩
    rw [hahead, hahead', hbehind', hbehind, hgroups', hgroups, List.reverse_append,
      List.append_assoc, List.append_assoc]
    exact ⟨rfl, rfl, rfl⟩

theorem length_ahead_lt (h : s.over? true x = some s') (hx : x ≠ []) :
    s'.ahead.length < s.ahead.length := by
  rw [(over?_eq_some_iff.mp h).1, List.length_append]
  exact Nat.lt_add_of_pos_left (List.length_pos_iff.mpr hx)

theorem step?_eq_some_iff {units : UnitClass} : s.step? true units = some s' ↔
    ∃ u, units.holds u = true ∧ s.over? true [u] = some s' := by
  simp only [over?_eq_some_iff, step?, if_true, List.reverse_singleton, List.singleton_append]
  cases hahead : s.ahead with
  | nil => simp
  | cons u rest =>
    dsimp only
    constructor
    · intro h
      split_ifs at h with hu
      obtain rfl := Option.some.inj h
      exact ⟨u, hu, rfl, rfl, rfl⟩
    · rintro ⟨v, hv, hcons, hbehind, hgroups⟩
      obtain ⟨rfl, rfl⟩ := List.cons.inj hcons
      rw [if_pos hv, ← hbehind, ← hgroups]

theorem forget_none (first : Nat) (s : Place) : s.forget first 0 = s := by
  have hkept : s.groups.filter (fun g ↦ g.1 < first || first + 0 ≤ g.1) = s.groups := by
    refine List.filter_eq_self.mpr fun g _ ↦ ?_
    rw [Bool.or_eq_true, decide_eq_true_eq, decide_eq_true_eq]
    exact Nat.lt_or_ge g.1 first
  rw [forget, hkept]

end Place

/-! ### Languages -/

/-- Forwards from every place, and whatever is to follow, the pattern finds its way over the texts
of a language and over no others. -/
def Recognizes (p : Pattern) (l : Language CodeUnit) : Prop :=
  ∀ (done : Place → Option Place) (s : Place),
    (p.run true done s).isSome ↔ ∃ x ∈ l, ∃ s', s.over? true x = some s' ∧ (done s').isSome

variable {p q : Pattern} {l m : Language CodeUnit}

theorem run_empty (done : Place → Option Place) : empty.run true done = done := rfl

theorem run_one (units : UnitClass) (done : Place → Option Place) (s : Place) :
    (one units).run true done s = (s.step? true units).bind done := rfl

theorem run_sequence (p q : Pattern) (done : Place → Option Place) :
    (sequence p q).run true done = p.run true (q.run true done) := rfl

theorem run_repeated (p : Pattern) (min : Nat) (max : Option Nat) (first : Nat)
    (done : Place → Option Place) (s : Place) : (repeated p min max true first 0).run true done s =
      rounds (p.run true) true first 0 done (min + s.ahead.length + s.behind.length + 2) min
        max s := rfl

theorem run_start (done : Place → Option Place) (s : Place) :
    start.run true done s = if s.behind.isEmpty then done s else none := rfl

theorem run_finish (done : Place → Option Place) (s : Place) :
    finish.run true done s = if s.ahead.isEmpty then done s else none := rfl

theorem recognizes_empty : Recognizes empty 1 := by
  intro done s
  simp only [run_empty, Language.mem_one, exists_eq_left, Place.over?_nil, Option.some_inj,
    exists_eq_left']

theorem recognizes_one (units : UnitClass) : Recognizes (one units) units.language := by
  intro done s
  rw [run_one, Option.isSome_bind, Option.any_eq_true]
  simp only [Place.step?_eq_some_iff]
  constructor
  · rintro ⟨s', ⟨u, hu, hover⟩, hdone⟩
    exact ⟨[u], ⟨u, hu, rfl⟩, s', hover, hdone⟩
  · rintro ⟨_, ⟨u, hu, rfl⟩, s', hover, hdone⟩
    exact ⟨s', ⟨u, hu, hover⟩, hdone⟩

theorem recognizes_only (u : CodeUnit) : Recognizes (one (.only u)) {[u]} := by
  have hlanguage : (UnitClass.only u).language = {[u]} := by
    ext x
    constructor
    · rintro ⟨v, hv, rfl⟩
      rw [(UnitClass.holds_only u v).mp hv]
      rfl
    · rintro rfl
      exact ⟨u, (UnitClass.holds_only u u).mpr rfl, rfl⟩
  rw [← hlanguage]
  exact recognizes_one _

theorem Recognizes.sequence (hp : p.Recognizes l) (hq : q.Recognizes m) :
    (sequence p q).Recognizes (l * m) := by
  intro done s
  rw [run_sequence, hp]
  simp only [hq done, Language.mem_mul]
  constructor
  · rintro ⟨x, hx, t, hover, y, hy, s', hover', hdone⟩
    exact ⟨x ++ y, ⟨x, hx, y, hy, rfl⟩, s', Place.over?_append_eq_some_iff.mpr ⟨t, hover, hover'⟩,
      hdone⟩
  · rintro ⟨_, ⟨x, hx, y, hy, rfl⟩, s', hover, hdone⟩
    obtain ⟨t, hover, hover'⟩ := Place.over?_append_eq_some_iff.mp hover
    exact ⟨x, hx, t, hover, y, hy, s', hover', hdone⟩

/-! ### Repetitions -/

section Repeated

variable (h : p.Recognizes l) (hne : [] ∉ l)
include h hne

/-- A repetition goes one more round, which takes it further, or it ends. -/
theorem isSome_rounds_iff {first bound : Nat} {max : Option Nat} {done : Place → Option Place}
    {s : Place} (hmax : max ≠ some 0) :
    (rounds (p.run true) true first 0 done (bound + 1) 0 max s).isSome ↔
      (∃ x ∈ l, ∃ s', s.over? true x = some s' ∧ s'.ahead.length < s.ahead.length ∧
        (rounds (p.run true) true first 0 done bound 0 (max.map (· - 1)) s').isSome) ∨
        (done s).isSome := by
  rw [rounds, if_neg hmax]
  dsimp only
  rw [if_neg (not_not.mpr rfl), if_pos rfl, Option.isSome_or, Bool.or_eq_true, Place.forget_none, h]
  refine or_congr_left (exists_congr fun x ↦ and_congr_right fun hx ↦ exists_congr fun s' ↦
    and_congr_right fun hover ↦ ?_)
  have hlt : s'.ahead.length < s.ahead.length :=
    Place.length_ahead_lt hover fun hnil ↦ hne (hnil ▸ hx)
  rw [if_neg (by simp [hlt.ne]), and_iff_right hlt]

theorem Recognizes.star (first : Nat) : (repeated p 0 none true first 0).Recognizes l∗ := by
  intro done s
  rw [run_repeated]
  -- the bound is more than what is ahead, and every round takes some of that
  generalize hbound : 0 + s.ahead.length + s.behind.length + 2 = bound
  replace hbound : s.ahead.length < bound := by omega
  induction bound generalizing s with
  | zero => cases hbound
  | succ bound ih =>
    have hrest : ∀ s' : Place, s'.ahead.length < s.ahead.length →
        ((rounds (p.run true) true first 0 done bound 0 none s').isSome ↔
          ∃ x ∈ l∗, ∃ t, s'.over? true x = some t ∧ (done t).isSome) :=
          fun s' hlt ↦ ih s' (by omega)
    rw [isSome_rounds_iff h hne (by simp), ← Language.one_add_self_mul_kstar_eq_kstar]
    simp only [Option.map_none, Language.mem_add, Language.mem_one, Language.mem_mul,
      or_and_right, exists_or, exists_eq_left, Place.over?_nil, Option.some_inj, exists_eq_left']
    rw [or_comm]
    refine or_congr_right ⟨?_, ?_⟩
    · rintro ⟨x, hx, s', hover, hlt, hrounds⟩
      obtain ⟨y, hy, t, hover', hdone⟩ := (hrest s' hlt).mp hrounds
      exact ⟨x ++ y, ⟨x, hx, y, hy, rfl⟩, t, Place.over?_append_eq_some_iff.mpr ⟨s', hover, hover'⟩,
        hdone⟩
    · rintro ⟨_, ⟨x, hx, y, hy, rfl⟩, t, hover, hdone⟩
      obtain ⟨s', hover, hover'⟩ := Place.over?_append_eq_some_iff.mp hover
      have hlt : s'.ahead.length < s.ahead.length :=
        Place.length_ahead_lt hover fun hnil ↦ hne (hnil ▸ hx)
      exact ⟨x, hx, s', hover, hlt, (hrest s' hlt).mpr ⟨y, hy, t, hover', hdone⟩⟩

theorem Recognizes.optional (first : Nat) :
    (repeated p 0 (some 1) true first 0).Recognizes (1 + l) := by
  intro done s
  rw [run_repeated, isSome_rounds_iff h hne (by simp)]
  simp only [Option.map_some, Nat.sub_self, rounds, if_true, Language.mem_add, Language.mem_one,
    or_and_right, exists_or, exists_eq_left, Place.over?_nil, Option.some_inj, exists_eq_left']
  rw [or_comm]
  refine or_congr_right (exists_congr fun x ↦ and_congr_right fun hx ↦ exists_congr fun s' ↦
    and_congr_right fun hover ↦ ?_)
  exact and_iff_right (Place.length_ahead_lt hover fun hnil ↦ hne (hnil ▸ hx))

end Repeated

/-! ### Sequences held at both ends -/

/-- The patterns of a list one after the other, nested as they are read. -/
def chain (p : Pattern) (qs : List Pattern) : Pattern := qs.foldl sequence p

theorem Recognizes.chain {qs : List Pattern} {ls : List (Language CodeUnit)} (hp : p.Recognizes l)
    (hqs : List.Forall₂ Recognizes qs ls) : (chain p qs).Recognizes (l * ls.prod) := by
  induction hqs generalizing p l with
  | nil => rwa [List.prod_nil, mul_one]
  | cons hq _ ih =>
    rw [List.prod_cons, ← mul_assoc]
    exact ih (hp.sequence hq)

theorem run_chain (p : Pattern) (qs : List Pattern) (done : Place → Option Place) :
    (chain p qs).run true done = p.run true ((chain empty qs).run true done) := by
  induction qs using List.reverseRecOn generalizing done with
  | nil => exact congrArg (p.run true) (run_empty done).symm
  | append_singleton qs q ih =>
    rw [chain, chain, List.foldl_concat, List.foldl_concat, run_sequence, run_sequence]
    exact ih (q.run true done)

/-- A sequence that is held at both ends of a text matches the texts of its language. -/
theorem occursIn_chain_iff {qs : List Pattern} (h : (chain empty qs).Recognizes l) (t : Text) :
    (sequence (chain (sequence empty start) qs) finish).occursIn t = true ↔ t ∈ l := by
  set whole := sequence (chain (sequence empty start) qs) finish
  have hrun : ∀ s : Place, whole.run true some s =
      if s.behind.isEmpty then (chain empty qs).run true (finish.run true some) s
      else none := fun s ↦ by
    rw [run_sequence, run_chain, run_sequence, run_empty, run_start]
  have hbehind : ∀ (u : CodeUnit) (behind rest : Text),
      whole.matchesFrom (u :: behind) rest = false := by
    intro u behind rest
    induction rest generalizing u behind with
    | nil => rw [matchesFrom, hrun]; rfl
    | cons v rest ih => rw [matchesFrom, hrun, ih]; rfl
  have hstart : whole.occursIn t =
      ((chain empty qs).run true (finish.run true some) ⟨[], t, []⟩).isSome := by
    rw [occursIn]
    cases t with
    | nil => rw [matchesFrom, hrun]; rfl
    | cons u rest => rw [matchesFrom, hrun, hbehind, Bool.or_false]; rfl
  rw [hstart, h]
  constructor
  · rintro ⟨x, hx, s', hover, hfinish⟩
    obtain ⟨hahead, -, -⟩ := Place.over?_eq_some_iff.mp hover
    rw [run_finish] at hfinish
    split_ifs at hfinish with hempty
    · rw [List.isEmpty_iff] at hempty
      rw [hempty, List.append_nil] at hahead
      obtain rfl : t = x := hahead
      exact hx
    · cases hfinish
  · intro ht
    refine ⟨t, ht, ⟨t.reverse, [], []⟩, Place.over?_eq_some_iff.mpr ?_, rfl⟩
    exact ⟨(List.append_nil t).symm, (List.append_nil _).symm, rfl⟩

end Pattern

end Declutter
