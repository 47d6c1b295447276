import Declutter.Edit
import Declutter.Span
import Declutter.Proofs.Text.Offset
import Mathlib.Algebra.BigOperators.Group.List.Basic
import Mathlib.Algebra.Ring.Int.Defs
import Mathlib.Algebra.Ring.Nat
import Mathlib.Data.List.Pairwise
/-!
Edits that fit a text and do not overlap. All of them can be carried out at once
(`Edit.exists_applyAll`), and what they spare stands in the result as it was, moved by what the
edits before it add and take away (`Edit.moved`).

Edits are often collected from parts of a text that do not meet. Such a list is `Edit.Confined` to
its part, together with the spans that it leaves alone; lists that are confined to parts that do not
meet make a list that is confined to a part around them (`Edit.Confined.append_flatMap`).
-/

set_option autoImplicit false
set_option relaxedAutoImplicit false

namespace Declutter

namespace Edit

open scoped List

/-! ### Edits that do not overlap -/

/-- The edit replaces something in a text of this length. -/
structure Fits (length : Nat) (e : Edit) : Prop where
  nonneg : 0 ≤ e.start
  lt : e.start < e.stop
  le : e.stop ≤ length

/-- The edit is in a text of this length. It may replace nothing, and put its text between two
units. -/
structure Lies (length : Nat) (e : Edit) : Prop where
  nonneg : 0 ≤ e.start
  ordered : e.start ≤ e.stop
  le : e.stop ≤ length

instance (length : Nat) (e : Edit) : Decidable (e.Lies length) :=
  decidable_of_iff (0 ≤ e.start ∧ e.start ≤ e.stop ∧ e.stop ≤ length)
    ⟨fun ⟨h₁, h₂, h₃⟩ ↦ ⟨h₁, h₂, h₃⟩, fun ⟨h₁, h₂, h₃⟩ ↦ ⟨h₁, h₂, h₃⟩⟩

/-- One of the edits stops before the other one starts. -/
def Apart (a b : Edit) : Prop := a.stop ≤ b.start ∨ b.stop ≤ a.start

instance : DecidableRel Apart :=
  fun a b ↦ inferInstanceAs (Decidable (a.stop ≤ b.start ∨ b.stop ≤ a.start))

/-- The edit replaces nothing of the span. -/
def Spares (e : Edit) (s : Span) : Prop := e.stop ≤ s.start ∨ s.stop ≤ e.start

instance : Inhabited Edit := ⟨deletion 0 0⟩

theorem Fits.lies {length : Nat} {e : Edit} (h : e.Fits length) : e.Lies length :=
  ⟨h.nonneg, Int.le_of_lt h.lt, h.le⟩

theorem Apart.symm {a b : Edit} (h : a.Apart b) : b.Apart a := Or.symm h

theorem le_transitive (a b c : Edit) (hab : le a b = true) (hbc : le b c = true) :
    le a c = true := by
  simp only [le, Bool.or_eq_true, Bool.and_eq_true, decide_eq_true_eq, beq_iff_eq] at hab hbc ⊢
  omega

theorem le_total (a b : Edit) : (le a b || le b a) = true := by
  simp only [le, Bool.or_eq_true, Bool.and_eq_true, decide_eq_true_eq, beq_iff_eq]
  omega

variable {t : Text} {edits : List Edit}

/-- In their order, edits that do not overlap follow each other. -/
theorem pairwise_mergeSort_of_apart (hlies : ∀ e ∈ edits, e.Lies t.length)
    (hapart : edits.Pairwise Apart) :
    (edits.mergeSort le).Pairwise fun a b ↦ a.stop ≤ b.start := by
  have hperm := edits.mergeSort_perm le
  have hsorted := List.pairwise_mergeSort le_transitive le_total edits
  have hapart' := hperm.symm.pairwise hapart Apart.symm
  refine (hsorted.and hapart').imp_of_mem fun ha hb ⟨hle, hor⟩ ↦ hor.elim id fun hlt ↦ ?_
  have hliesb := (hlies _ (hperm.mem_iff.mp hb)).ordered
  simp only [le, Bool.or_eq_true, Bool.and_eq_true, decide_eq_true_eq, beq_iff_eq] at hle
  omega

/-- Sorted edits have no fault exactly if they are in the text and follow each other. -/
theorem firstFault_eq_none_iff {length : Nat} {floor : Option Int} :
    firstFault length floor edits = none ↔ (∀ e ∈ edits, e.Lies length) ∧
      (∀ f ∈ floor, ∀ e ∈ edits, f ≤ e.start) ∧ edits.Pairwise fun a b ↦ a.stop ≤ b.start := by
  induction edits generalizing floor with
  | nil => simp [firstFault]
  | cons e rest ih =>
    have hinside : ¬ (e.start < 0 ∨ (length : Int) < e.stop ∨ e.stop < e.start) ↔ e.Lies length :=
      ⟨fun h ↦ ⟨by omega, by omega, by omega⟩, fun ⟨hnonneg, hordered, hle⟩ ↦ by omega⟩
    have hafter : ¬ floor.any (e.start < ·) = true ↔ ∀ f ∈ floor, f ≤ e.start := by
      rw [Option.any_eq_true]
      simp only [decide_eq_true_eq, not_exists, not_and, Int.not_lt, Option.mem_def]
    simp only [List.forall_mem_cons, List.pairwise_cons]
    rw [firstFault]
    split_ifs with hout hover
    · exact iff_of_false (fun h ↦ nomatch h) fun h ↦ hinside.mpr h.1.1 hout
    · exact iff_of_false (fun h ↦ nomatch h) fun h ↦ hafter.mpr (fun f hf ↦ (h.2.1 f hf).1) hover
    · have hlies := hinside.mp hout
      have hfloor := hafter.mp hover
      rw [ih]
      constructor
      · rintro ⟨hrest, hstop, hpairs⟩
        refine ⟨⟨hlies, hrest⟩, fun f hf ↦ ⟨hfloor f hf, fun x hx ↦ ?_⟩, hstop e.stop rfl, hpairs⟩
        exact Int.le_trans (hfloor f hf) (Int.le_trans hlies.ordered (hstop e.stop rfl x hx))
      · rintro ⟨⟨-, hrest⟩, -, hstop, hpairs⟩
        refine ⟨hrest, fun f hf ↦ ?_, hpairs⟩
        obtain rfl := Option.some.inj hf
        exact hstop

theorem firstFault_eq_none {length : Nat} {floor : Option Int} (hfits : ∀ e ∈ edits, e.Fits length)
    (hfloor : ∀ f ∈ floor, ∀ e ∈ edits, f ≤ e.start)
    (hordered : edits.Pairwise fun a b ↦ a.stop ≤ b.start) : firstFault length floor edits = none :=
  firstFault_eq_none_iff.mpr ⟨fun e he ↦ (hfits e he).lies, hfloor, hordered⟩

/-! ### The text after the edits -/

/-- The text from an offset on after edits that follow each other from there. -/
def weave (t : Text) : Nat → List Edit → Text
  | i, [] => t.drop i
  | i, e :: rest => t.slice i e.start.toNat ++ e.text ++ weave t e.stop.toNat rest

/-- Carrying out edits from the last to the first is the same as going through the text once. -/
theorem foldr_splice_eq_weave {i : Nat} (hlies : ∀ e ∈ edits, e.Lies t.length)
    (hfloor : ∀ e ∈ edits, (i : Int) ≤ e.start)
    (hordered : edits.Pairwise fun a b ↦ a.stop ≤ b.start) :
    edits.foldr splice t = t.take i ++ weave t i edits := by
  induction edits generalizing i with
  | nil => exact (List.take_append_drop i t).symm
  | cons e rest ih =>
    rw [List.forall_mem_cons] at hlies hfloor
    rw [List.pairwise_cons] at hordered
    obtain ⟨hnonneg, hle', hle⟩ := hlies.1
    obtain ⟨start, hstart⟩ := Int.eq_ofNat_of_zero_le hnonneg
    obtain ⟨stop, hstop⟩ := Int.eq_ofNat_of_zero_le (Int.le_trans hnonneg hle')
    have hfloor' : i ≤ start := by have := hfloor.1; omega
    have hrest := ih (i := stop) hlies.2 (hstop ▸ hordered.1) hordered.2
    have hlength : (t.take stop).length = stop := by rw [List.length_take]; omega
    have htake : t.take start = t.take i ++ t.slice i start := by
      have hcut := List.take_append_drop i (t.take start)
      rw [List.take_take, Nat.min_eq_left hfloor'] at hcut
      exact hcut.symm
    rw [List.foldr_cons, hrest, splice, weave, hstart, hstop, Int.toNat_natCast, Int.toNat_natCast,
      List.drop_left' hlength, List.take_append_of_le_length (by omega), List.take_take,
      Nat.min_eq_left (by omega), htake]
    simp only [List.append_assoc]

/-- Edits from an offset on leave the text up to it as it was. -/
theorem weave_of_le {i j : Nat} (hij : i ≤ j) (hedits : ∀ e ∈ edits, (j : Int) ≤ e.start)
    (hj : j ≤ t.length) :
    weave t i edits = t.slice i j ++ weave t j edits := by
  cases edits with
  | nil =>
    have hcut : t.drop i = (t.take j ++ t.drop j).drop i := by rw [List.take_append_drop]
    rw [weave, weave, hcut, List.drop_append_of_le_length (by rw [List.length_take]; omega),
      Text.slice]
  | cons e rest =>
    have hstart := hedits e List.mem_cons_self
    rw [weave, weave, ← List.append_assoc, ← List.append_assoc,
      Text.slice_append_slice hij (by omega)]

/-- Edits that follow each other can be carried out. -/
theorem applyAll_eq_weave (hfits : ∀ e ∈ edits, e.Fits t.length)
    (hordered : edits.Pairwise fun a b ↦ a.stop ≤ b.start) :
    applyAll edits t = .ok (weave t 0 edits) := by
  have hsorted : edits.mergeSort le = edits := by
    refine List.mergeSort_of_pairwise (hordered.imp_of_mem fun {a b} ha hb hab ↦ ?_)
    have := (hfits a ha).lt
    have hlt : a.start < b.start := by omega
    rw [le, decide_eq_true hlt, Bool.true_or]
  have hfault : firstFault t.length none edits = none := firstFault_eq_none hfits (by simp) hordered
  rw [applyAll, hsorted, hfault]
  exact congrArg Except.ok (foldr_splice_eq_weave (i := 0) (fun e he ↦ (hfits e he).lies)
    (fun e he ↦ (hfits e he).nonneg) hordered)

/-- Edits that do not overlap are carried out in their order. -/
theorem applyAll_eq_weave_mergeSort (hfits : ∀ e ∈ edits, e.Fits t.length)
    (hapart : edits.Pairwise Apart) :
    applyAll edits t = .ok (weave t 0 (edits.mergeSort le)) := by
  have hsorted : (edits.mergeSort le).mergeSort le = edits.mergeSort le :=
    List.mergeSort_of_pairwise (List.pairwise_mergeSort le_transitive le_total edits)
  have hweave := applyAll_eq_weave (fun e he ↦ hfits e ((edits.mergeSort_perm le).mem_iff.mp he))
    (pairwise_mergeSort_of_apart (fun e he ↦ (hfits e he).lies) hapart)
  rwa [applyAll, hsorted] at hweave

/-- How many units an edit adds to the text. -/
def growth (e : Edit) : Int := e.text.length - (e.stop - e.start)

/-- Where an offset is after the edits, of which those before it move it. -/
def moved (edits : List Edit) (i : Nat) : Int :=
  i + (edits.map fun e : Edit ↦ if e.stop ≤ (i : Int) then e.growth else 0).sum

theorem moved_cons_of_le {e : Edit} {rest : List Edit} {i : Nat} (h : e.stop ≤ (i : Int)) :
    moved (e :: rest) i = moved rest i + e.growth := by
  rw [moved, moved, List.map_cons, List.sum_cons, if_pos h]
  omega

theorem moved_eq_self {i : Nat} (h : ∀ e ∈ edits, (i : Int) < e.stop) : moved edits i = i := by
  have hzero : (edits.map fun e : Edit ↦ if e.stop ≤ (i : Int) then e.growth else 0).sum = 0 :=
    List.sum_eq_zero fun x hx ↦ by
      obtain ⟨e, he, rfl⟩ := List.mem_map.mp hx
      exact if_neg (by have := h e he; omega)
  rw [moved, hzero, Int.add_zero]

theorem moved_perm {edits' : List Edit} (h : edits ~ edits') (i : Nat) :
    moved edits i = moved edits' i := by
  rw [moved, moved, (h.map _).sum_eq]

/-- A part of the text around a span, cut at both ends of the span. -/
theorem slice_eq_append {i j : Nat} {s : Span} (hi : i ≤ s.start) (hs : s.start ≤ s.stop)
    (hj : s.stop ≤ j) :
    t.slice i j = t.slice i s.start ++ s.read t ++ t.slice s.stop j := by
  rw [Span.read, Text.slice_append_slice hi hs, Text.slice_append_slice (hi.trans hs) hj]

/-- A span that the edits spare stands in the text after them. -/
theorem exists_weave_eq {i : Nat} {s : Span} (hs : s.start ≤ s.stop) (hlength : s.stop ≤ t.length)
    (hfits : ∀ e ∈ edits, e.Fits t.length) (hordered : edits.Pairwise fun a b ↦ a.stop ≤ b.start)
    (hfloor : ∀ e ∈ edits, (i : Int) ≤ e.start) (hspares : ∀ e ∈ edits, e.Spares s)
    (hi : i ≤ s.start) :
    ∃ before after, weave t i edits = before ++ s.read t ++ after ∧
      (before.length : Int) = moved edits s.start - i := by
  have hstart : (t.slice i s.start).length = s.start - i := Text.length_slice (hs.trans hlength)
  induction edits generalizing i with
  | nil =>
    refine ⟨t.slice i s.start, t.slice s.stop t.length, ?_, ?_⟩
    · rw [← slice_eq_append hi hs hlength, Text.slice, List.take_length, weave]
    · rw [hstart, moved_eq_self (by simp)]
      omega
  | cons e rest ih =>
    rw [List.forall_mem_cons] at hfits hfloor hspares
    rw [List.pairwise_cons] at hordered
    obtain ⟨hnonneg, hlt, hle⟩ := hfits.1
    rcases hspares.1 with hbefore | hafter
    · -- the edit is before the span, which the rest of the edits spares
      obtain ⟨before, after, hweave, hbeforeLength⟩ :=
        ih (i := e.stop.toNat) hfits.2 hordered.2 (fun f hf ↦ by have := hordered.1 f hf; omega)
          hspares.2 (by omega) (Text.length_slice (hs.trans hlength))
      refine ⟨t.slice i e.start.toNat ++ e.text ++ before, after, ?_, ?_⟩
      · rw [weave, hweave]
        simp only [List.append_assoc]
      · rw [List.length_append, List.length_append, Text.length_slice (by omega), Int.natCast_add,
          Int.natCast_add, hbeforeLength, moved_cons_of_le hbefore, growth]
        have := hfloor.1
        omega
    · -- the edit and the ones after it are behind the span
      refine ⟨t.slice i s.start, t.slice s.stop e.start.toNat ++ e.text ++
        weave t e.stop.toNat rest, ?_, ?_⟩
      · rw [weave, slice_eq_append hi hs (by omega : s.stop ≤ e.start.toNat)]
        simp only [List.append_assoc]
      · rw [hstart, moved_eq_self]
        · omega
        · intro f hf
          have hfollows : f = e ∨ e.stop ≤ f.start := (List.mem_cons.mp hf).imp_right (hordered.1 f)
          have := ((List.forall_mem_cons.mpr hfits) f hf).lt
          rcases hfollows with rfl | hfollows <;> omega

/-- Edits that fit a text and do not overlap can be carried out at once, and every span that they
spare stands in the result. -/
theorem exists_applyAll (hfits : ∀ e ∈ edits, e.Fits t.length) (hapart : edits.Pairwise Apart) :
    ∃ text, applyAll edits t = .ok text ∧
      ∀ s : Span, s.start ≤ s.stop → s.stop ≤ t.length → (∀ e ∈ edits, e.Spares s) →
        ∃ before after, text = before ++ s.read t ++ after ∧
          (before.length : Int) = moved edits s.start := by
  have hperm := edits.mergeSort_perm le
  have hfits' : ∀ e ∈ edits.mergeSort le, e.Fits t.length :=
    fun e he ↦ hfits e (hperm.mem_iff.mp he)
  refine ⟨_, applyAll_eq_weave_mergeSort hfits hapart, fun s hs hlength hspares ↦ ?_⟩
  obtain ⟨before, after, hweave, hbefore⟩ := exists_weave_eq hs hlength hfits'
    (pairwise_mergeSort_of_apart (fun e he ↦ (hfits e he).lies) hapart)
      (fun e he ↦ (hfits' e he).nonneg)
    (fun e he ↦ hspares e (hperm.mem_iff.mp he)) (Nat.zero_le _)
  refine ⟨before, after, hweave, ?_⟩
  rw [hbefore, moved_perm hperm, Int.natCast_zero, Int.sub_zero]

/-! ### What is counted in a text -/

/-- The text that the edit replaces. -/
def replaced (e : Edit) (t : Text) : Text := t.slice e.start.toNat e.stop.toNat

/-- Units of any kind come and go only by the edits: those that the edits replace are lost, and
those that they write are gained. -/
theorem countP_weave (p : CodeUnit → Bool) {i : Nat} (hfits : ∀ e ∈ edits, e.Fits t.length)
    (hordered : edits.Pairwise fun a b ↦ a.stop ≤ b.start)
    (hfloor : ∀ e ∈ edits, (i : Int) ≤ e.start) :
    (weave t i edits).countP p + (edits.map fun e ↦ (e.replaced t).countP p).sum =
      (t.drop i).countP p + (edits.map (·.text.countP p)).sum := by
  induction edits generalizing i with
  | nil => rw [weave, List.map_nil, List.map_nil]
  | cons e rest ih =>
    rw [List.forall_mem_cons] at hfits hfloor
    rw [List.pairwise_cons] at hordered
    have hlt := hfits.1.lt
    have hle := hfits.1.le
    have hi := hfloor.1
    have hrest := ih (i := e.stop.toNat) hfits.2 hordered.2 fun f hf ↦ by
      have := hordered.1 f hf
      omega
    have hcut : t.drop i = t.slice i e.start.toNat ++ e.replaced t ++ t.drop e.stop.toNat := by
      have hall : ∀ j, t.drop j = t.slice j t.length := fun j ↦ by rw [Text.slice, List.take_length]
      rw [replaced, hall, hall, Text.slice_append_slice (by omega) (by omega),
        Text.slice_append_slice (by omega) (by omega)]
    simp only [weave, hcut, List.countP_append, List.map_cons, List.sum_cons]
    omega

theorem countP_applyAll (p : CodeUnit → Bool) {text : Text} (hfits : ∀ e ∈ edits, e.Fits t.length)
    (hapart : edits.Pairwise Apart) (h : applyAll edits t = .ok text) :
    text.countP p + (edits.map fun e ↦ (e.replaced t).countP p).sum =
      t.countP p + (edits.map (·.text.countP p)).sum := by
  have hperm := edits.mergeSort_perm le
  have hfits' : ∀ e ∈ edits.mergeSort le, e.Fits t.length :=
    fun e he ↦ hfits e (hperm.mem_iff.mp he)
  obtain rfl := Except.ok.inj ((applyAll_eq_weave_mergeSort hfits hapart).symm.trans h)
  have hweave := countP_weave p (i := 0) hfits'
    (pairwise_mergeSort_of_apart (fun e he ↦ (hfits e he).lies) hapart) fun e he ↦
      (hfits' e he).nonneg
  rwa [(hperm.map _).sum_eq, (hperm.map _).sum_eq, List.drop_zero] at hweave

/-- Units that no edit writes become fewer, unless no edit replaces any. -/
theorem countP_applyAll_lt {p : CodeUnit → Bool} {text : Text}
    (hfits : ∀ e ∈ edits, e.Fits t.length) (hapart : edits.Pairwise Apart)
    (htexts : ∀ e ∈ edits, e.text.countP p = 0)
    (hreplaced : ∃ e ∈ edits, 0 < (e.replaced t).countP p) (h : applyAll edits t = .ok text) :
    text.countP p < t.countP p := by
  have hbalance := countP_applyAll p hfits hapart h
  have hzero : (edits.map (·.text.countP p)).sum = 0 :=
    List.sum_eq_zero (List.forall_mem_map.mpr htexts)
  obtain ⟨e, he, hpos⟩ := hreplaced
  have hsum : 0 < (edits.map fun e ↦ (e.replaced t).countP p).sum :=
    List.sum_pos_iff_exists_pos_nat.mpr ⟨_, List.mem_map_of_mem he, hpos⟩
  omega

/-! ### Edits in a part of a text -/

/-- The edits stay in a part of the text and do not overlap, and neither do they touch what is
guarded, which is in the same part. -/
structure Confined (part : Span) (guarded : Span → Prop) (edits : List Edit) : Prop where
  proper : ∀ e ∈ edits, e.start < e.stop
  inside : ∀ e ∈ edits, (part.start : Int) ≤ e.start ∧ e.stop ≤ part.stop
  apart : edits.Pairwise Apart
  reaches : ∀ s, guarded s → part.start ≤ s.start ∧ s.start ≤ s.stop ∧ s.stop ≤ part.stop
  spares : ∀ s, guarded s → ∀ e ∈ edits, e.Spares s

namespace Confined

variable {part : Span} {guarded : Span → Prop}

theorem perm {edits' : List Edit} (h : Confined part guarded edits) (hperm : edits ~ edits') :
    Confined part guarded edits' where
  proper e he := h.proper e (hperm.mem_iff.mpr he)
  inside e he := h.inside e (hperm.mem_iff.mpr he)
  apart := hperm.pairwise h.apart Apart.symm
  reaches := h.reaches
  spares s hs e he := h.spares s hs e (hperm.mem_iff.mpr he)

/-- Edits that are confined to a text fit it. -/
theorem fits (h : Confined ⟨0, t.length⟩ guarded edits) : ∀ e ∈ edits, e.Fits t.length := fun e he ↦
  ⟨(h.inside e he).1, h.proper e he, (h.inside e he).2⟩

/-- Edits of a part as a whole, and edits of smaller parts in it that the former spare and that do
not meet. -/
theorem append_flatMap {α : Type} {pieces : List α} {piece : α → Span} {guards : α → Span → Prop}
    {inner : α → List Edit} {own : List Edit} (hown : Confined part (fun _ ↦ False) own)
    (hinner : ∀ x ∈ pieces, Confined (piece x) (guards x) (inner x))
    (hinside : ∀ x ∈ pieces, part.start ≤ (piece x).start ∧ (piece x).stop ≤ part.stop)
    (hapart : pieces.Pairwise fun x y ↦ (piece x).stop ≤ (piece y).start ∨
      (piece y).stop ≤ (piece x).start)
    (hspares : ∀ e ∈ own, ∀ x ∈ pieces, e.Spares (piece x)) :
    Confined part (fun s ↦ ∃ x ∈ pieces, guards x s) (own ++ pieces.flatMap inner) where
  proper e he := by
    rcases List.mem_append.mp he with he | he
    · exact hown.proper e he
    · obtain ⟨x, hx, he⟩ := List.mem_flatMap.mp he
      exact (hinner x hx).proper e he
  inside e he := by
    rcases List.mem_append.mp he with he | he
    · exact hown.inside e he
    · obtain ⟨x, hx, he⟩ := List.mem_flatMap.mp he
      have hpart := hinside x hx
      have hpiece := (hinner x hx).inside e he
      omega
  apart := by
    refine List.pairwise_append.mpr
      ⟨hown.apart, List.pairwise_flatMap.mpr ⟨fun x hx ↦ (hinner x hx).apart, ?_⟩, ?_⟩
    · refine hapart.imp_of_mem fun hx hy hxy e he f hf ↦ ?_
      have he' := (hinner _ hx).inside e he
      have hf' := (hinner _ hy).inside f hf
      rw [Apart]
      omega
    · intro e he f hf
      obtain ⟨x, hx, hf⟩ := List.mem_flatMap.mp hf
      have hf' := (hinner x hx).inside f hf
      have hspare := hspares e he x hx
      rw [Spares] at hspare
      rw [Apart]
      omega
  reaches := by
    rintro s ⟨x, hx, hs⟩
    have hpart := hinside x hx
    have hpiece := (hinner x hx).reaches s hs
    omega
  spares := by
    rintro s ⟨x, hx, hs⟩ e he
    have hs' := (hinner x hx).reaches s hs
    rcases List.mem_append.mp he with he | he
    · have hspare := hspares e he x hx
      rw [Spares] at hspare ⊢
      omega
    · obtain ⟨y, hy, he⟩ := List.mem_flatMap.mp he
      by_cases hxy : x = y
      · subst hxy
        exact (hinner x hx).spares s hs e he
      · have he' := (hinner y hy).inside e he
        have : Std.Symm fun x y ↦ (piece x).stop ≤ (piece y).start ∨
            (piece y).stop ≤ (piece x).start :=
          ⟨fun _ _ ↦ Or.symm⟩
        have hor := hapart.forall hx hy hxy
        rw [Spares]
        omega

end Confined

end Edit

end Declutter
