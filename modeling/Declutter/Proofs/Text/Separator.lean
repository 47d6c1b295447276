import Declutter.Proofs.Text.Offset
/-!
What can stand between two statements: semicolons with padding around them, and comments. A
separator is one semicolon with padding around it; the scans for one at the start and at the end of
a text find it (`Edit.afterSeparator?_slice`, `Edit.beforeSeparator?_slice`). An offset closes its
line if only blanks, semicolons and a comment follow it there; code that follows it outside that
comment is then on a later line (`Text.exists_newline_of_closesLine`).
-/

set_option autoImplicit false
set_option relaxedAutoImplicit false

namespace Declutter

theorem CodeUnit.not_isSolid_of_isPadding {u : CodeUnit} (h : u.isPadding = true) :
    u.isSolid = false := by
  rw [isSolid, isBlank_of_isPadding h]
  rfl

namespace Text

/-! ### Separators -/

/-- From `i` up to `j` there is a semicolon at `m`, and everything else is padding. -/
structure Separates (t : Text) (i j m : Nat) : Prop where
  le : i ≤ m
  lt : m < j
  semicolon : t.hasAt (· == ';') m = true
  padding : ∀ k, i ≤ k → k < j → k ≠ m → t.hasAt CodeUnit.isPadding k = true

variable {t : Text} {i j k m : Nat}

theorem hasAt_slice (p : CodeUnit → Bool) (h : k < j - i) :
    t.hasAt p (i + k) = ((t.slice i j)[k]?).any p := by
  rw [hasAt, getElem?_slice, if_pos (by omega)]

/-- A separator in a part of a text, seen from the whole text. -/
theorem separates_of_slice {before padding₁ padding₂ after : Text} (hij : i ≤ j) (hj : j ≤ t.length)
    (h : t.slice i j = before ++ (padding₁ ++ (CodeUnit.ofChar ';' :: padding₂)) ++ after)
    (h₁ : ∀ u ∈ padding₁, u.isPadding = true) (h₂ : ∀ u ∈ padding₂, u.isPadding = true) :
    t.Separates (i + before.length) (j - after.length) (i + (before.length + padding₁.length)) := by
  have hlength := congrArg List.length h
  rw [length_slice hj] at hlength
  simp only [List.length_append, List.length_cons] at hlength
  refine ⟨by omega, by omega, ?_, fun k hi hk hne ↦ ?_⟩
  · rw [hasAt_slice (j := j) _ (by omega), h]
    simp
  · obtain ⟨n, rfl⟩ := Nat.exists_eq_add_of_le hi
    rw [Nat.add_assoc, hasAt_slice (j := j) _ (by omega), h, List.append_assoc,
      List.getElem?_append_right (by omega), Nat.add_sub_cancel_left]
    rcases Nat.lt_trichotomy n padding₁.length with hlt | heq | hgt
    · rw [List.getElem?_append_left (by simp; omega), List.getElem?_append_left hlt,
        List.getElem?_eq_getElem hlt]
      exact h₁ _ (List.getElem_mem hlt)
    · omega
    · obtain ⟨l, rfl⟩ := Nat.exists_eq_add_of_lt hgt
      have hl : l < padding₂.length := by omega
      rw [List.getElem?_append_left (by simp; omega), List.getElem?_append_right (by omega)]
      have hindex : padding₁.length + l + 1 - padding₁.length = l + 1 := by omega
      rw [hindex, List.getElem?_cons_succ, List.getElem?_eq_getElem hl]
      exact h₂ _ (List.getElem_mem hl)

end Text

namespace Edit

open Text

variable {t : Text} {i j m : Nat}

theorem afterSeparator?_eq_some {x following : Text} (h : afterSeparator? x = some following) :
    ∃ padding₁ padding₂ : Text, x = padding₁ ++ (CodeUnit.ofChar ';' :: padding₂) ++ following ∧
      (∀ u ∈ padding₁, u.isPadding = true) ∧ ∀ u ∈ padding₂, u.isPadding = true := by
  rw [afterSeparator?] at h
  split at h
  · next u rest hdrop =>
    split_ifs at h with hu
    obtain rfl := Option.some.inj h
    refine ⟨x.takeWhile CodeUnit.isPadding, rest.takeWhile CodeUnit.isPadding, ?_,
      fun _ ↦ List.mem_takeWhile_imp, fun _ ↦ List.mem_takeWhile_imp⟩
    rw [List.append_assoc, List.cons_append, List.takeWhile_append_dropWhile, ← hu, ← hdrop,
      List.takeWhile_append_dropWhile]
  · cases h

theorem afterSeparator?_slice {following : Text} (hij : i ≤ j) (hj : j ≤ t.length)
    (h : afterSeparator? (t.slice i j) = some following) :
    ∃ m, t.Separates i (j - following.length) m := by
  obtain ⟨padding₁, padding₂, hslice, h₁, h₂⟩ := afterSeparator?_eq_some h
  exact ⟨_,
    separates_of_slice hij hj (hslice.trans (congrArg (· ++ _) (List.nil_append _).symm)) h₁ h₂⟩

theorem beforeSeparator?_slice {preceding : Text} (hij : i ≤ j) (hj : j ≤ t.length)
    (h : beforeSeparator? (t.slice i j) = some preceding) :
    ∃ m, t.Separates (i + preceding.length) j m := by
  rw [beforeSeparator?] at h
  obtain ⟨reversed, hreversed, rfl⟩ := Option.map_eq_some_iff.mp h
  obtain ⟨padding₂, padding₁, hslice, h₂, h₁⟩ := afterSeparator?_eq_some hreversed
  rw [List.reverse_eq_iff] at hslice
  have hcut : t.slice i j =
      reversed.reverse ++ (padding₁.reverse ++ (CodeUnit.ofChar ';' :: padding₂.reverse)) ++
      [] := by
    rw [hslice]
    simp
  exact ⟨_, separates_of_slice hij hj hcut (fun u hu ↦ h₁ u (List.mem_reverse.mp hu))
    fun u hu ↦ h₂ u (List.mem_reverse.mp hu)⟩

/-- The scan for a separator succeeds on one. -/
theorem isSeparator_slice (h : t.Separates i j m) : isSeparator (t.slice i j) = true := by
  obtain ⟨u, hu, hsemicolon⟩ := hasAt_eq_true.mp h.semicolon
  rw [beq_iff_eq] at hsemicolon
  subst hsemicolon
  have hbefore : ∀ v ∈ t.slice i m, v.isPadding = true := forall_mem_slice fun k hi hm ↦
    h.padding k hi (hm.trans h.lt) hm.ne
  have hafter : ∀ v ∈ t.slice (m + 1) j, v.isPadding = true := forall_mem_slice fun k hm hj ↦
    h.padding k (h.le.trans (Nat.le_of_succ_le hm)) hj (Nat.ne_of_gt hm)
  rw [isSeparator, afterSeparator?, ← slice_append_slice h.le h.lt.le, slice_eq_cons h.lt hu,
    List.dropWhile_append_of_pos hbefore, List.dropWhile_cons_of_neg (by decide)]
  dsimp only
  rw [if_pos rfl, List.dropWhile_eq_nil_iff.mpr hafter]
  rfl

end Edit

namespace Text

variable {t : Text} {i j k m n : Nat}

theorem Separates.not_isSolid (h : t.Separates i j m) (hi : i ≤ k) (hj : k < j) :
    ¬ t.hasAt CodeUnit.isSolid k = true := by
  by_cases hk : k = m
  · subst hk
    refine not_hasAt_of_hasAt (fun u hu ↦ ?_) h.semicolon
    rw [beq_iff_eq] at hu
    rw [hu]
    rfl
  · exact not_hasAt_of_hasAt (fun _ ↦ CodeUnit.not_isSolid_of_isPadding) (h.padding k hi hj hk)

/-! ### Comments -/

/-- Of the comments that start from `i` on, where every number sign starts one, none is open at
`j`. -/
def Uncommented (t : Text) (i j : Nat) : Prop :=
  ∀ k ≤ j, i ≤ k → t.hasAt (· == '#') k = true →
    ∃ n < j, k < n ∧ t.hasAt CodeUnit.isNewline n = true

instance (t : Text) (i j : Nat) : Decidable (t.Uncommented i j) :=
  inferInstanceAs (Decidable (∀ k ≤ j, i ≤ k → t.hasAt (· == '#') k = true →
    ∃ n < j, k < n ∧ t.hasAt CodeUnit.isNewline n = true))

/-- The text without its comments, where every number sign starts one; `inside` says whether the
text starts in a comment. -/
def uncomment (inside : Bool) : Text → Text
  | [] => []
  | u :: rest =>
    if u.isNewline then u :: uncomment false rest
    else if inside || u == '#' then uncomment true rest
    else u :: uncomment false rest

theorem uncomment_eq_self {t : Text} (h : ∀ u ∈ t, (u == CodeUnit.ofChar '#') = false) :
    uncomment false t = t := by
  induction t with
  | nil => rfl
  | cons u rest ih =>
    rw [List.forall_mem_cons] at h
    rw [uncomment, ih h.2, h.1]
    split_ifs with hnewline hinside
    · rfl
    · exact Bool.noConfusion hinside
    · rfl

/-- Two semicolons in a part of the text without a number sign. -/
theorem two_le_count_uncomment (hi : i ≤ m) (hmn : m < n) (hn : n < j)
    (hm : t.hasAt (· == ';') m = true) (hn' : t.hasAt (· == ';') n = true)
    (hnone : ∀ k, i ≤ k → k < j → ¬ t.hasAt (· == '#') k = true) :
    2 ≤ (uncomment false (t.slice i j)).count (CodeUnit.ofChar ';') := by
  have hsigns : ∀ u ∈ t.slice i j, (u == CodeUnit.ofChar '#') = false := by
    intro u hu
    obtain ⟨l, hl⟩ := List.getElem?_of_mem hu
    rw [getElem?_slice] at hl
    split_ifs at hl with hlt
    refine eq_false_of_ne_true fun hsign ↦ hnone (i + l) (by omega) hlt ?_
    exact hasAt_eq_true.mpr ⟨u, hl, hsign⟩
  obtain ⟨u, hu, husemicolon⟩ := hasAt_eq_true.mp hm
  obtain ⟨v, hv, hvsemicolon⟩ := hasAt_eq_true.mp hn'
  rw [uncomment_eq_self hsigns, ← slice_append_slice hi (hmn.trans hn).le,
    slice_eq_cons (hmn.trans hn) hu, ← slice_append_slice (t := t) hmn hn.le, slice_eq_cons hn hv,
    List.count_append, List.count_cons, List.count_append, List.count_cons, if_pos husemicolon,
    if_pos hvsemicolon]
  omega

/-- Whether from the offset on only blanks, semicolons and a comment are on the line. -/
def closesLine (t : Text) (i : Nat) : Bool :=
  Edit.holdsNoCode ((t.slice i (t.lineEnd i)).dropWhile (!·.isSolid))

/-- The first solid unit of a text that holds no code otherwise starts a comment. -/
theorem exists_comment_of_holdsNoCode {x : Text}
    (h : Edit.holdsNoCode (x.dropWhile (!·.isSolid)) = true)
    (hk : (x[k]?).any CodeUnit.isSolid = true) :
    ∃ n ≤ k, (x[n]?).any (· == CodeUnit.ofChar '#') = true := by
  induction x generalizing k with
  | nil => cases hk
  | cons u rest ih =>
    cases hu : u.isSolid with
    | true =>
      rw [List.dropWhile_cons_of_neg (by simp [hu])] at h
      have hblank : ¬ u.isBlank = true := by
        rw [CodeUnit.isSolid, Bool.and_eq_true, Bool.not_eq_true'] at hu
        simp [hu.1]
      rw [Edit.holdsNoCode, trimStart, List.dropWhile_cons_of_neg hblank] at h
      exact ⟨0, Nat.zero_le _, h⟩
    | false =>
      rw [List.dropWhile_cons_of_pos (by simp [hu])] at h
      cases k with
      | zero => simp [hu] at hk
      | succ k =>
        obtain ⟨n, hn, hcomment⟩ := ih h hk
        exact ⟨n + 1, Nat.succ_le_succ hn, hcomment⟩

/-- A text that holds no code still holds none without what is not solid at its start. -/
theorem holdsNoCode_dropWhile_of {x : Text} (h : Edit.holdsNoCode x = true) :
    Edit.holdsNoCode (x.dropWhile (!·.isSolid)) = true := by
  induction x with
  | nil => rfl
  | cons u rest ih =>
    cases hblank : u.isBlank with
    | true =>
      rw [Edit.holdsNoCode, trimStart, List.dropWhile_cons_of_pos hblank] at h
      rw [List.dropWhile_cons_of_pos (by simp [CodeUnit.isSolid, hblank])]
      exact ih h
    | false =>
      have hsign := h
      rw [Edit.holdsNoCode, trimStart, List.dropWhile_cons_of_neg (by simp [hblank])] at hsign
      rw [beq_iff_eq] at hsign
      subst hsign
      rwa [List.dropWhile_cons_of_neg (by decide)]

/-- The line is closed if code is missing after units that are not solid. -/
theorem closesLine_of_slice {before rest : Text} (h : t.slice i (t.lineEnd i) = before ++ rest)
    (hbefore : ∀ u ∈ before, u.isSolid = false) (hrest : Edit.holdsNoCode rest = true) :
    t.closesLine i = true := by
  rw [closesLine, h, List.dropWhile_append_of_pos fun u hu ↦ by rw [hbefore u hu]; rfl]
  exact holdsNoCode_dropWhile_of hrest

/-- Code after an offset that closes its line is on a later line. -/
theorem exists_newline_of_closesLine (hcloses : t.closesLine i = true) (hik : i ≤ k)
    (hsolid : t.hasAt CodeUnit.isSolid k = true) (hopen : t.Uncommented i k) :
    ∃ n < k, i ≤ n ∧ t.hasAt CodeUnit.isNewline n = true := by
  have hlength := lt_length_of_hasAt hsolid
  by_cases hend : k < t.lineEnd i
  · -- the first solid unit of the rest of the line starts a comment, which ends before `k`
    obtain ⟨n, rfl⟩ := Nat.exists_eq_add_of_le hik
    rw [hasAt_slice (j := t.lineEnd i) _ (by omega)] at hsolid
    obtain ⟨l, hl, hcomment⟩ := exists_comment_of_holdsNoCode hcloses hsolid
    rw [← hasAt_slice (i := i) (j := t.lineEnd i) _ (by omega)] at hcomment
    obtain ⟨m, hm, hlm, hnewline⟩ := hopen (i + l) (by omega) (by omega) hcomment
    exact ⟨m, hm, by omega, hnewline⟩
  · have hnewline : t.hasAt CodeUnit.isNewline (t.lineEnd i) = true := newline_lineEnd (by omega)
    have hne : t.lineEnd i ≠ k := fun heq ↦ not_newline_of_isSolid hsolid (heq ▸ hnewline)
    exact ⟨t.lineEnd i, by omega, le_lineEnd (by omega), hnewline⟩

end Text

end Declutter
