import Declutter.Proofs.Edit
/-!
Edits are made at once. Carrying them out one after the other, from the last to the first, gives the
text that one walk through the source gives: it copies what no edit takes away and writes each text
where its edit starts (`Edit.walk`). The walk knows no order of the edits apart from that of
insertions at one offset, and sorting keeps that order; so neither does the result depend on another
(`Edit.applyAll_simultaneous`).
-/

set_option autoImplicit false
set_option relaxedAutoImplicit false

namespace Declutter.Edit

open scoped List

/-! ### One walk through a text -/

/-- The edit puts its text before the unit at the offset and replaces nothing. -/
def insertsAt (i : Nat) (e : Edit) : Bool := e.start == i && e.stop == i

/-- The edit replaces the units from the offset on, at least the one there. -/
def replacesFrom (i : Nat) (e : Edit) : Bool := e.start == i && (i : Int) < e.stop

/-- The edit takes the unit at the offset away. -/
def takes (i : Nat) (e : Edit) : Bool := e.start ≤ i && (i : Int) < e.stop

/-- What is written at an offset: the insertions there, in the order of the list, and after them the
text of what is replaced from there on. -/
def writtenAt (edits : List Edit) (i : Nat) : Text :=
  (edits.filter (insertsAt i)).flatMap (·.text) ++ (edits.filter (replacesFrom i)).flatMap (·.text)

/-- What the walk does at an offset: it writes what is written there, and copies the unit unless an
edit takes it away. At the end of the text there is no unit. -/
def walkAt (edits : List Edit) (t : Text) (i : Nat) : Text :=
  writtenAt edits i ++ if edits.any (takes i) then [] else t[i]?.toList

/-- The text that one walk through `t`, from its start to its end, makes with the edits. -/
def walk (edits : List Edit) (t : Text) : Text :=
  (List.range (t.length + 1)).flatMap (walkAt edits t)

variable {t : Text} {edits edits' : List Edit} {e : Edit} {i : Nat}

theorem flatMap_getElem?_range' (i n : Nat) :
    ((List.range' i n).flatMap fun k ↦ t[k]?.toList) = (t.drop i).take n := by
  induction n generalizing i with
  | zero => rfl
  | succ n ih =>
    rw [List.range'_succ, List.flatMap_cons, ih, List.drop_eq_getElem?_toList_append (i := i)]
    cases h : t[i]? with
    | none =>
      have hend : t.length ≤ i + 1 := by
        rw [List.getElem?_eq_none_iff] at h
        omega
      simp [List.drop_eq_nil_of_le hend]
    | some u => rfl

/-- Before the first edit everything is copied. -/
theorem walkAt_of_lt (h : ∀ e ∈ edits, (i : Int) < e.start) : walkAt edits t i = t[i]?.toList := by
  have hinserts : edits.filter (insertsAt i) = [] := List.filter_eq_nil_iff.mpr fun e he ↦ by
    have := h e he
    simp only [insertsAt, Bool.and_eq_true, beq_iff_eq]
    omega
  have hreplaces : edits.filter (replacesFrom i) = [] := List.filter_eq_nil_iff.mpr fun e he ↦ by
    have := h e he
    simp only [replacesFrom, Bool.and_eq_true, beq_iff_eq, decide_eq_true_eq]
    omega
  have htakes : ¬ edits.any (takes i) = true := by
    rw [List.any_eq_true]
    rintro ⟨e, he, htakes⟩
    have := h e he
    simp only [takes, Bool.and_eq_true, decide_eq_true_eq] at htakes
    omega
  rw [walkAt, writtenAt, hinserts, hreplaces, if_neg htakes]
  rfl

theorem walkAt_cons_of_insertsAt (h : e.insertsAt i = true) :
    walkAt (e :: edits) t i = e.text ++ walkAt edits t i := by
  have hempty : e.start = i ∧ e.stop = i := by simpa [insertsAt] using h
  have hreplaces : ¬ e.replacesFrom i = true := by
    simp only [replacesFrom, Bool.and_eq_true, decide_eq_true_eq]
    omega
  have htakes : e.takes i = false := by
    simp only [takes, Bool.and_eq_false_iff, decide_eq_false_iff_not]
    omega
  rw [walkAt, walkAt, writtenAt, writtenAt, List.filter_cons_of_pos h,
    List.filter_cons_of_neg hreplaces, List.flatMap_cons, List.any_cons, htakes, Bool.false_or]
  simp only [List.append_assoc]

/-- Where the edits after it have not started yet, an edit that replaces something writes its text
once, and nothing more is written as far as it reaches. -/
theorem walkAt_cons_of_takes (h : e.takes i = true) (hedits : ∀ f ∈ edits, (i : Int) < f.start) :
    walkAt (e :: edits) t i = if e.start = i then e.text else [] := by
  have hreaches : e.start ≤ i ∧ (i : Int) < e.stop := by simpa [takes] using h
  have hinserts : (e :: edits).filter (insertsAt i) = [] := List.filter_eq_nil_iff.mpr <|
    List.forall_mem_cons.mpr
      ⟨by simp only [insertsAt, Bool.and_eq_true, beq_iff_eq]; omega, fun f hf ↦ by
      have := hedits f hf
      simp only [insertsAt, Bool.and_eq_true, beq_iff_eq]
      omega⟩
  have hreplaces : edits.filter (replacesFrom i) = [] := List.filter_eq_nil_iff.mpr fun f hf ↦ by
    have := hedits f hf
    simp only [replacesFrom, Bool.and_eq_true, beq_iff_eq]
    omega
  have hfrom : e.replacesFrom i = decide (e.start = i) := by
    rw [replacesFrom, decide_eq_true hreaches.2, Bool.and_true]
    rfl
  rw [walkAt, writtenAt, hinserts, List.filter_cons, hreplaces, hfrom, List.any_cons, h,
    Bool.true_or, if_pos rfl]
  split_ifs with hstart
  · simp
  · simp_all
  · simp_all
  · rfl

/-- An edit does nothing at the offsets behind it. -/
theorem walkAt_cons_of_le (hstop : e.stop ≤ i) (hinserts : ¬ e.insertsAt i = true) :
    walkAt (e :: edits) t i = walkAt edits t i := by
  have hreplaces : ¬ e.replacesFrom i = true := by
    simp only [replacesFrom, Bool.and_eq_true, decide_eq_true_eq]
    omega
  have htakes : e.takes i = false := by
    simp only [takes, Bool.and_eq_false_iff, decide_eq_false_iff_not]
    omega
  rw [walkAt, walkAt, writtenAt, writtenAt, List.filter_cons_of_neg hinserts,
    List.filter_cons_of_neg hreplaces, List.any_cons, htakes, Bool.false_or]

/-- A range of offsets, cut at one of them. -/
theorem range'_eq_append {i j n : Nat} (hij : i ≤ j) (hj : j ≤ n) :
    List.range' i (n - i) = List.range' i (j - i) ++ List.range' j (n - j) := by
  have hcut := @List.range'_append_1 i (j - i) (n - j)
  rwa [show i + (j - i) = j by omega, show j - i + (n - j) = n - i by omega, eq_comm] at hcut

/-- From where an edit starts, the walk writes its text and goes on where it stops. -/
theorem flatMap_walkAt_cons {start stop : Nat} (hstart : e.start = start) (hstop : e.stop = stop)
    (hle : start ≤ stop) (hlength : stop ≤ t.length)
    (hedits : ∀ f ∈ edits, (stop : Int) ≤ f.start) :
    (List.range' start (t.length + 1 - start)).flatMap (walkAt (e :: edits) t) =
      e.text ++ (List.range' stop (t.length + 1 - stop)).flatMap (walkAt edits t) := by
  rcases hle.eq_or_lt with rfl | hlt
  · have hinserts : e.insertsAt start = true := by simp [insertsAt, hstart, hstop]
    rw [show t.length + 1 - start = (t.length - start) + 1 by omega, List.range'_succ,
      List.flatMap_cons, List.flatMap_cons, walkAt_cons_of_insertsAt hinserts, List.append_assoc]
    refine congrArg (fun after ↦ e.text ++ (walkAt edits t start ++ after))
      (List.flatMap_congr fun k hk ↦ ?_)
    rw [List.mem_range'_1] at hk
    refine walkAt_cons_of_le (by omega) ?_
    simp only [insertsAt, Bool.and_eq_true, beq_iff_eq]
    omega
  · have hthrough : (List.range' start (stop - start)).flatMap (walkAt (e :: edits) t) =
        e.text := by
      have htakes : ∀ k ∈ List.range' start (stop - start),
          walkAt (e :: edits) t k = if e.start = k then e.text else [] := fun k hk ↦ by
        rw [List.mem_range'_1] at hk
        refine walkAt_cons_of_takes ?_ fun f hf ↦ ?_
        · simp only [takes, Bool.and_eq_true, decide_eq_true_eq]
          omega
        · have := hedits f hf
          omega
      rw [List.flatMap_congr htakes, show stop - start = (stop - start - 1) + 1 by omega,
        List.range'_succ, List.flatMap_cons, if_pos hstart, List.flatMap_eq_nil_iff.mpr,
        List.append_nil]
      intro k hk
      rw [List.mem_range'_1] at hk
      rw [if_neg (by omega)]
    have hbehind : ∀ k ∈ List.range' stop (t.length + 1 - stop),
        walkAt (e :: edits) t k = walkAt edits t k := fun k hk ↦ by
      rw [List.mem_range'_1] at hk
      refine walkAt_cons_of_le (by omega) ?_
      simp only [insertsAt, Bool.and_eq_true, beq_iff_eq]
      omega
    rw [range'_eq_append hle (by omega), List.flatMap_append, hthrough, List.flatMap_congr hbehind]

/-- Going from edit to edit is the walk, if the edits follow each other. -/
theorem weave_eq_flatMap_walkAt (hlies : ∀ e ∈ edits, e.Lies t.length) (hi : i ≤ t.length)
    (hfloor : ∀ e ∈ edits, (i : Int) ≤ e.start)
    (hordered : edits.Pairwise fun a b ↦ a.stop ≤ b.start) :
    weave t i edits = (List.range' i (t.length + 1 - i)).flatMap (walkAt edits t) := by
  induction edits generalizing i with
  | nil =>
    have hcopied : ∀ k, walkAt [] t k = t[k]?.toList := fun k ↦ walkAt_of_lt (by simp)
    rw [weave, List.flatMap_congr fun k _ ↦ hcopied k, flatMap_getElem?_range',
      List.take_of_length_le (by rw [List.length_drop]; omega)]
  | cons e rest ih =>
    rw [List.forall_mem_cons] at hlies hfloor
    rw [List.pairwise_cons] at hordered
    obtain ⟨hnonneg, hle', hle⟩ := hlies.1
    obtain ⟨start, hstart⟩ := Int.eq_ofNat_of_zero_le hnonneg
    obtain ⟨stop, hstop⟩ := Int.eq_ofNat_of_zero_le (Int.le_trans hnonneg hle')
    have hi' := hfloor.1
    have hrest := ih (i := stop) hlies.2 (by omega) (hstop ▸ hordered.1) hordered.2
    have hbefore : (List.range' i (start - i)).flatMap (walkAt (e :: rest) t) =
        t.slice i start := by
      rw [List.flatMap_congr fun k hk ↦ walkAt_of_lt (List.forall_mem_cons.mpr ⟨?_, fun f hf ↦ ?_⟩),
        flatMap_getElem?_range', Text.slice, List.drop_take]
      · rw [List.mem_range'_1] at hk
        omega
      · rw [List.mem_range'_1] at hk
        have := hordered.1 f hf
        omega
    rw [weave, range'_eq_append (by omega : i ≤ start) (by omega), List.flatMap_append, hbefore,
      flatMap_walkAt_cons hstart hstop (by omega) (by omega) (hstop ▸ hordered.1), hstart, hstop,
      Int.toNat_natCast, Int.toNat_natCast, hrest, List.append_assoc]

/-! ### The order of the list -/

/-- Sorting keeps the order of the insertions at one offset. -/
theorem filter_insertsAt_mergeSort (edits : List Edit) (i : Nat) :
    (edits.mergeSort le).filter (insertsAt i) = edits.filter (insertsAt i) := by
  have hsame : (edits.filter (insertsAt i)).Pairwise fun a b ↦ le a b = true := by
    refine List.pairwise_of_forall_mem_list fun a ha b hb ↦ ?_
    have ha' := (List.mem_filter.mp ha).2
    have hb' := (List.mem_filter.mp hb).2
    simp only [insertsAt, Bool.and_eq_true, beq_iff_eq] at ha' hb'
    simp only [le, Bool.or_eq_true, Bool.and_eq_true, decide_eq_true_eq, beq_iff_eq]
    omega
  have hsub :=
    (List.sublist_mergeSort le_transitive le_total hsame List.filter_sublist).filter (insertsAt i)
  rw [List.filter_filter] at hsub
  simp only [Bool.and_self] at hsub
  exact (hsub.eq_of_length ((edits.mergeSort_perm le).filter _).length_eq.symm).symm

/-- At most one of several edits that do not overlap replaces something from an offset on. -/
theorem length_filter_replacesFrom_le (hapart : edits.Pairwise Apart) (i : Nat) :
    (edits.filter (replacesFrom i)).length ≤ 1 := by
  have hfilter := hapart.filter (replacesFrom i)
  match hreplaces : edits.filter (replacesFrom i) with
  | [] => exact Nat.zero_le 1
  | [_] => exact le_rfl
  | a :: b :: rest =>
    rw [hreplaces, List.pairwise_cons] at hfilter
    have hab := hfilter.1 b List.mem_cons_self
    have ha : a.replacesFrom i = true := (List.mem_filter.mp (hreplaces ▸ List.mem_cons_self)).2
    have hb : b.replacesFrom i = true :=
      (List.mem_filter.mp (hreplaces ▸ List.mem_cons_of_mem a List.mem_cons_self)).2
    simp only [replacesFrom, Bool.and_eq_true, beq_iff_eq, decide_eq_true_eq] at ha hb
    rw [Apart] at hab
    omega

/-- The walk is the same for every order of the edits that keeps the insertions at each offset in
order. -/
theorem walk_perm (hapart : edits.Pairwise Apart) (hperm : edits' ~ edits)
    (hinserts : ∀ i, edits'.filter (insertsAt i) = edits.filter (insertsAt i)) :
    walk edits' t = walk edits t := by
  refine List.flatMap_congr fun i _ ↦ ?_
  have hreplaces : edits'.filter (replacesFrom i) = edits.filter (replacesFrom i) := by
    have hfilter := hperm.filter (replacesFrom i)
    have hlength := length_filter_replacesFrom_le hapart i
    match h : edits.filter (replacesFrom i) with
    | [] => exact List.perm_nil.mp (h ▸ hfilter)
    | [_] => exact List.perm_singleton.mp (h ▸ hfilter)
    | _ :: _ :: _ =>
      rw [h] at hlength
      exact absurd hlength (by simp)
  rw [walkAt, walkAt, writtenAt, writtenAt, hinserts, hreplaces, hperm.any_eq]

/-- The offsets of the edits alone decide on their first fault. -/
theorem firstFault_congr {length : Nat} {floor : Option Int}
    (h : edits'.map (fun e ↦ (e.start, e.stop)) = edits.map fun e ↦ (e.start, e.stop)) :
    firstFault length floor edits' = firstFault length floor edits := by
  induction edits generalizing edits' floor with
  | nil => rw [List.map_eq_nil_iff.mp h]
  | cons e rest ih =>
    obtain ⟨e', rest', rfl, hoffsets, hrest⟩ := List.map_eq_cons_iff.mp h
    obtain ⟨hstart, hstop⟩ := Prod.mk.inj hoffsets
    rw [firstFault, firstFault, hstart, hstop, ih hrest]

/-- The offsets of edits in their order do not depend on the order before. -/
theorem map_offsets_mergeSort (hperm : edits' ~ edits) :
    (edits'.mergeSort le).map (fun e ↦ (e.start, e.stop)) = (edits.mergeSort le).map fun e ↦
      (e.start, e.stop) := by
  have hsorted : ∀ l : List Edit, ((l.mergeSort le).map fun e ↦ (e.start, e.stop)).Pairwise
      fun a b ↦ a.1 < b.1 ∨ a.1 = b.1 ∧ a.2 ≤ b.2 := fun l ↦
    List.pairwise_map.mpr <| (List.pairwise_mergeSort le_transitive le_total l).imp fun hle ↦ by
      simpa only [le, Bool.or_eq_true, Bool.and_eq_true, decide_eq_true_eq, beq_iff_eq] using hle
  refine List.Perm.eq_of_pairwise (fun a b _ _ hab hba ↦ ?_) (hsorted edits')
    (hsorted edits) (.map _ ?_)
  · rcases hab with hab | hab <;> rcases hba with hba | hba <;>
      first | omega | exact Prod.ext hab.1 (Int.le_antisymm hab.2 hba.2)
  · exact (edits'.mergeSort_perm le).trans (hperm.trans (edits.mergeSort_perm le).symm)

/-! ### All edits at once -/

/-- Edits can be carried out exactly if each is in the text and no two overlap, and then the result
is that of the walk. -/
theorem applyAll_eq_ok_iff {text : Text} : applyAll edits t = .ok text ↔
    (∀ e ∈ edits, e.Lies t.length) ∧ edits.Pairwise Apart ∧ text = walk edits t := by
  have hperm := edits.mergeSort_perm le
  have hsucceeds : firstFault t.length none (edits.mergeSort le) = none ↔
      (∀ e ∈ edits, e.Lies t.length) ∧ edits.Pairwise Apart := by
    rw [firstFault_eq_none_iff]
    constructor
    · rintro ⟨hlies, -, hordered⟩
      exact ⟨fun e he ↦ hlies e (hperm.mem_iff.mpr he),
        hperm.pairwise (hordered.imp .inl) Apart.symm⟩
    · rintro ⟨hlies, hapart⟩
      exact ⟨fun e he ↦ hlies e (hperm.mem_iff.mp he), by simp,
        pairwise_mergeSort_of_apart hlies hapart⟩
  rw [← and_assoc, ← hsucceeds, applyAll]
  cases hfault : firstFault t.length none (edits.mergeSort le) with
  | some fault => simp
  | none =>
    obtain ⟨hlies, -, hordered⟩ := firstFault_eq_none_iff.mp hfault
    have hnonneg : ∀ e ∈ edits.mergeSort le, ((0 : Nat) : Int) ≤ e.start :=
      fun e he ↦ (hlies e he).nonneg
    have hwalk : (edits.mergeSort le).foldr splice t = walk edits t := by
      rw [foldr_splice_eq_weave hlies hnonneg hordered,
        weave_eq_flatMap_walkAt hlies (Nat.zero_le _) hnonneg hordered, Nat.sub_zero,
        ← List.range_eq_range', List.take_zero, List.nil_append]
      exact walk_perm (hsucceeds.mp hfault).2 hperm (filter_insertsAt_mergeSort edits)
    rw [hwalk, Except.ok.injEq, eq_comm]
    exact (and_iff_right rfl).symm

/-- Edits are made at once. They can be carried out exactly if each is in the text and no two of
them overlap; the result is then the text that one walk through the source makes, in which
insertions at one offset stand in the order of the list and before what is replaced from there on.
Any other order of the list that keeps the order of the insertions at each offset gives the same
result, or the same fault. -/
theorem applyAll_simultaneous (edits : List Edit) (t : Text) :
    (∀ text, applyAll edits t = .ok text ↔
      (∀ e ∈ edits, e.Lies t.length) ∧ edits.Pairwise Apart ∧ text = walk edits t) ∧
    ∀ edits' : List Edit, edits' ~ edits →
      (∀ i, edits'.filter (insertsAt i) = edits.filter (insertsAt i)) →
      applyAll edits' t = applyAll edits t := by
  refine ⟨fun text ↦ applyAll_eq_ok_iff, fun edits' hperm hinserts ↦ ?_⟩
  have hfault : firstFault t.length none (edits'.mergeSort le) =
      firstFault t.length none (edits.mergeSort le) :=
    firstFault_congr (map_offsets_mergeSort hperm)
  cases happly : applyAll edits t with
  | ok text =>
    obtain ⟨hlies, hapart, rfl⟩ := applyAll_eq_ok_iff.mp happly
    exact applyAll_eq_ok_iff.mpr
      ⟨fun e he ↦ hlies e (hperm.mem_iff.mp he), hperm.symm.pairwise hapart Apart.symm,
        (walk_perm hapart hperm hinserts).symm⟩
  | error fault =>
    rw [applyAll] at happly ⊢
    rw [hfault]
    cases hfirst : firstFault t.length none (edits.mergeSort le) with
    | some found =>
      rw [hfirst] at happly
      exact happly
    | none =>
      rw [hfirst] at happly
      cases happly

/-- Two insertions at one offset, a replacement that starts there and one further on, in two
orders. -/
theorem applyAll_simultaneous_specimen :
    let edits : List Edit := [⟨4, 5, "Z"⟩, ⟨0, 0, "1"⟩, ⟨0, 0, "2"⟩, ⟨0, 1, "X"⟩]
    let edits' : List Edit := [⟨0, 1, "X"⟩, ⟨0, 0, "1"⟩, ⟨4, 5, "Z"⟩, ⟨0, 0, "2"⟩]
    edits' ~ edits ∧ (∀ i, edits'.filter (insertsAt i) = edits.filter (insertsAt i)) ∧
      applyAll edits "abcdef" = .ok "12XbcdZf" ∧ applyAll edits' "abcdef" = .ok "12XbcdZf" := by
  intro edits edits'
  have hperm : edits' ~ edits := by decide
  have hinserts : ∀ i, edits'.filter (insertsAt i) = edits.filter (insertsAt i) := by
    intro i
    match i with
    | 0 => rfl
    | i + 1 =>
      have hnone : ∀ l : List Edit, (∀ e ∈ l, e.start < e.stop ∨ e.start = 0) →
          l.filter (insertsAt (i + 1)) = [] := by
        refine fun l hl ↦ List.filter_eq_nil_iff.mpr fun e he ↦ ?_
        have := hl e he
        simp only [insertsAt, Bool.and_eq_true, beq_iff_eq]
        omega
      rw [hnone edits' (by decide), hnone edits (by decide)]
  obtain ⟨hok, horder⟩ := applyAll_simultaneous edits "abcdef"
  have happly : applyAll edits "abcdef" = .ok "12XbcdZf" :=
    (hok _).mpr ⟨by decide, by decide, by decide⟩
  exact ⟨hperm, hinserts, happly, (horder edits' hperm hinserts).trans happly⟩

end Declutter.Edit
