import Declutter.Proofs.Text.Line
import Mathlib.Data.List.TakeWhile
/-!
Units of a text by their offsets. The line that holds an offset starts after the last line feed
before it and ends at the first line feed from it on (`Text.not_newline_of_lineStart_le`,
`Text.lineEnd_le_of_newline`). Deleting whole lines goes up to the start of the next line
(`Text.nextLine`), which is never past a line that starts after a line feed further on
(`Text.nextLine_le_lineStart`).
-/

set_option autoImplicit false
set_option relaxedAutoImplicit false

namespace Declutter

/-- A unit that is neither blank nor a semicolon. -/
def CodeUnit.isSolid (u : CodeUnit) : Bool := !u.isBlank && u != ';'

theorem CodeUnit.isBlank_of_isNewline {u : CodeUnit} (h : u.isNewline = true) :
    u.isBlank = true := by
  rw [isNewline, beq_iff_eq] at h
  rw [h]
  rfl

theorem CodeUnit.isBlank_of_isPadding {u : CodeUnit} (h : u.isPadding = true) :
    u.isBlank = true := by
  rw [isPadding, Bool.or_eq_true, beq_iff_eq, beq_iff_eq] at h
  rcases h with rfl | rfl <;> rfl

namespace Text

/-- Whether there is a unit at the offset and it satisfies `p`. -/
def hasAt (t : Text) (p : CodeUnit → Bool) (i : Nat) : Bool := (t[i]?).any p

variable {t : Text} {i j k : Nat} {p q : CodeUnit → Bool}

theorem hasAt_eq_true : t.hasAt p i = true ↔ ∃ u, t[i]? = some u ∧ p u = true := by
  rw [hasAt, Option.any_eq_true]

theorem lt_length_of_hasAt (h : t.hasAt p i = true) : i < t.length := by
  obtain ⟨u, hu, -⟩ := hasAt_eq_true.mp h
  exact (List.getElem?_eq_some_iff.mp hu).1

/-- No unit satisfies two predicates that exclude each other. -/
theorem not_hasAt_of_hasAt (hpq : ∀ u, p u = true → q u = false) (h : t.hasAt p i = true) :
    ¬ t.hasAt q i = true := by
  intro hq
  obtain ⟨u, hu, hpu⟩ := hasAt_eq_true.mp h
  obtain ⟨v, hv, hqv⟩ := hasAt_eq_true.mp hq
  obtain rfl := Option.some.inj (hu.symm.trans hv)
  rw [hpq u hpu] at hqv
  exact Bool.noConfusion hqv

theorem hasAt_mono (hpq : ∀ u, p u = true → q u = true) (h : t.hasAt p i = true) :
    t.hasAt q i = true := by
  obtain ⟨u, hu, hpu⟩ := hasAt_eq_true.mp h
  exact hasAt_eq_true.mpr ⟨u, hu, hpq u hpu⟩

/-- Offsets with a solid and with a blank unit are not the same. -/
theorem not_blank_of_isSolid (h : t.hasAt CodeUnit.isSolid i = true) :
    ¬ t.hasAt CodeUnit.isBlank i = true :=
  not_hasAt_of_hasAt (fun u hu ↦ by
    rw [CodeUnit.isSolid, Bool.and_eq_true, Bool.not_eq_true'] at hu
    exact hu.1) h

theorem not_newline_of_isSolid (h : t.hasAt CodeUnit.isSolid i = true) :
    ¬ t.hasAt CodeUnit.isNewline i = true :=
  fun hnewline ↦
    not_blank_of_isSolid h (hasAt_mono (fun _ ↦ CodeUnit.isBlank_of_isNewline) hnewline)

/-! ### Slices -/

theorem getElem?_slice (t : Text) (start stop k : Nat) :
    (t.slice start stop)[k]? = if start + k < stop then t[start + k]? else none := by
  rw [slice, List.getElem?_drop, List.getElem?_take]

theorem length_slice (h : j ≤ t.length) : (t.slice i j).length = j - i := by
  rw [slice, List.length_drop, List.length_take, Nat.min_eq_left h]

theorem slice_append_slice (hij : i ≤ j) (hjk : j ≤ k) :
    t.slice i j ++ t.slice j k = t.slice i k := by
  have hcut : (t.take k).drop i = ((t.take k).drop i).take (j - i) ++
      ((t.take k).drop i).drop (j - i) :=
    (List.take_append_drop _ _).symm
  rw [List.take_drop, List.drop_drop, List.take_take, Nat.add_sub_cancel' hij, Nat.min_eq_left hjk]
    at hcut
  exact hcut.symm

theorem slice_eq_cons (hij : i < j) {u : CodeUnit} (hu : t[i]? = some u) :
    t.slice i j = u :: t.slice (i + 1) j := by
  obtain ⟨hlt, rfl⟩ := List.getElem?_eq_some_iff.mp hu
  rw [slice, slice, List.drop_eq_getElem_cons (by rw [List.length_take]; omega), List.getElem_take]

theorem forall_mem_slice (h : ∀ k, i ≤ k → k < j → t.hasAt p k = true) :
    ∀ u ∈ t.slice i j, p u = true := by
  intro u hu
  obtain ⟨n, hn⟩ := List.getElem?_of_mem hu
  rw [getElem?_slice] at hn
  split_ifs at hn with hlt
  obtain ⟨v, hv, hpv⟩ := hasAt_eq_true.mp (h (i + n) (Nat.le_add_right _ _) hlt)
  obtain rfl := Option.some.inj (hn.symm.trans hv)
  exact hpv

/-- Every unit inside the slice satisfies `p` if all units of the slice do. -/
theorem hasAt_of_all_slice (h : (t.slice i j).all p = true) (hi : i ≤ k) (hj : k < j)
    (hlength : k < t.length) : t.hasAt p k = true := by
  have hget : (t.slice i j)[k - i]? = t[k]? := by
    rw [getElem?_slice, Nat.add_sub_cancel' hi, if_pos hj]
  rw [List.getElem?_eq_getElem hlength] at hget
  exact hasAt_eq_true.mpr ⟨_, List.getElem?_eq_getElem hlength,
    List.all_eq_true.mp h _ (List.mem_of_getElem? hget)⟩

/-! ### Lines -/

theorem lineStart_le (t : Text) (i : Nat) : t.lineStart i ≤ i := by
  rw [lineStart, List.length_take]
  omega

theorem lineEnd_le (t : Text) (i : Nat) : t.lineEnd i ≤ t.length := Nat.sub_le _ _

theorem le_lineEnd (h : i ≤ t.length) : i ≤ t.lineEnd i := by
  have hle : ((t.drop i).dropWhile (!·.isNewline)).length ≤ (t.drop i).length :=
    (List.dropWhile_suffix _).length_le
  rw [List.length_drop] at hle
  rw [lineEnd]
  omega

/-- The text up to an offset, cut at the start of the line that holds the offset. -/
theorem exists_lineStart (t : Text) (i : Nat) :
    ∃ before part : Text, t.take i = before ++ part ∧ before.EndsLine ∧ part.IsOnLine ∧
      t.lineStart i = before.length := by
  refine ⟨((t.take i).reverse.dropWhile (!·.isNewline)).reverse,
    ((t.take i).reverse.takeWhile (!·.isNewline)).reverse, ?_, ?_, ?_, ?_⟩
  · rw [← List.reverse_append, List.takeWhile_append_dropWhile, List.reverse_reverse]
  · intro u hu
    rw [List.getLast?_reverse] at hu
    have hhead := List.head?_dropWhile_not (!·.isNewline) (t.take i).reverse
    rw [Option.mem_def.mp hu] at hhead
    simpa using hhead
  · intro u hu
    simpa using List.mem_takeWhile_imp (List.mem_reverse.mp hu)
  · have hlength := congrArg List.length
      (List.takeWhile_append_dropWhile (p := (!·.isNewline)) (l := (t.take i).reverse))
    rw [List.length_append, List.length_reverse] at hlength
    rw [lineStart, List.length_reverse]
    omega

/-- The text from an offset on, cut at the end of the line that holds the offset. -/
theorem exists_lineEnd (t : Text) (i : Nat) :
    ∃ part following : Text, t.drop i = part ++ following ∧ part.IsOnLine ∧
    following.StartsAfterLine ∧
      t.lineEnd i = t.length - following.length := by
  refine ⟨_, _, (List.takeWhile_append_dropWhile (p := (!·.isNewline))).symm, ?_, ?_, rfl⟩
  · intro u hu
    simpa using List.mem_takeWhile_imp hu
  · intro u hu
    have hhead := List.head?_dropWhile_not (!·.isNewline) (t.drop i)
    rw [Option.mem_def.mp hu] at hhead
    simpa using hhead

/-- From the start of a line on there is no line feed before the offset. -/
theorem not_newline_of_lineStart_le (hstart : t.lineStart i ≤ k) (hk : k < i) :
    ¬ t.hasAt CodeUnit.isNewline k = true := by
  intro hnewline
  obtain ⟨u, hu, hisNewline⟩ := hasAt_eq_true.mp hnewline
  obtain ⟨before, part, htake, -, hpart, hlength⟩ := exists_lineStart t i
  have hmem : u ∈ part := by
    refine List.mem_of_getElem? (i := k - before.length) ?_
    rw [← List.getElem?_append_right (hlength ▸ hstart), ← htake, List.getElem?_take, if_pos hk, hu]
  rw [hpart u hmem] at hisNewline
  exact Bool.noConfusion hisNewline

theorem lt_lineStart (hk : k < i) (hnewline : t.hasAt CodeUnit.isNewline k = true) :
    k < t.lineStart i :=
  Nat.lt_of_not_le fun hle ↦ not_newline_of_lineStart_le hle hk hnewline

/-- Before the start of a line there is a line feed, unless it is the first one. -/
theorem newline_before_lineStart (h : 0 < t.lineStart i) :
    t.hasAt CodeUnit.isNewline (t.lineStart i - 1) = true := by
  obtain ⟨before, part, htake, hbefore, -, hlength⟩ := exists_lineStart t i
  rw [hlength] at h
  have hlast : before[before.length - 1]? = before.getLast? := List.getLast?_eq_getElem?.symm
  have hlt : before.length - 1 < before.length := Nat.sub_one_lt_of_lt h
  obtain ⟨u, hu⟩ : ∃ u, before.getLast? = some u :=
    Option.isSome_iff_exists.mp (List.getLast?_isSome.mpr (List.ne_nil_of_length_pos h))
  have hi : t.lineStart i - 1 < i := by have := lineStart_le t i; omega
  refine hasAt_eq_true.mpr ⟨u, ?_, hbefore u hu⟩
  have hget : (t.take i)[before.length - 1]? = some u := by
    rw [htake, List.getElem?_append_left hlt, hlast, hu]
  rw [hlength] at hi ⊢
  rwa [List.getElem?_take, if_pos hi] at hget

/-- A line ends no later than at a line feed from the offset on. -/
theorem lineEnd_le_of_newline (hk : i ≤ k) (hnewline : t.hasAt CodeUnit.isNewline k = true) :
    t.lineEnd i ≤ k := by
  obtain ⟨u, hu, hisNewline⟩ := hasAt_eq_true.mp hnewline
  obtain ⟨part, following, hdrop, hpart, -, hlength⟩ := exists_lineEnd t i
  have hlt := lt_length_of_hasAt hnewline
  by_contra hlt'
  have hsum := congrArg List.length hdrop
  rw [List.length_drop, List.length_append] at hsum
  have hmem : u ∈ part := by
    refine List.mem_of_getElem? (i := k - i) ?_
    rw [← List.getElem?_append_left (by omega : k - i < part.length), ← hdrop, List.getElem?_drop,
      Nat.add_sub_cancel' hk, hu]
  rw [hpart u hmem] at hisNewline
  exact Bool.noConfusion hisNewline

/-- A line that does not end with the text ends in a line feed. -/
theorem newline_lineEnd (h : t.lineEnd i < t.length) :
    t.hasAt CodeUnit.isNewline (t.lineEnd i) = true := by
  obtain ⟨part, following, hdrop, -, hfollowing, hlength⟩ := exists_lineEnd t i
  have hsum := congrArg List.length hdrop
  rw [List.length_drop, List.length_append] at hsum
  cases following with
  | nil =>
    rw [List.length_nil] at hlength
    omega
  | cons u rest =>
    rw [List.length_cons] at hlength hsum
    refine hasAt_eq_true.mpr ⟨u, ?_, hfollowing u rfl⟩
    have hget : (t.drop i)[part.length]? = some u := by
      rw [hdrop, List.getElem?_append_right le_rfl, Nat.sub_self, List.getElem?_cons_zero]
    rw [List.getElem?_drop] at hget
    rw [← hget]
    congr 1
    omega

/-! ### The next line -/

/-- The offset of the line after the one that holds an offset, or the length of the text. -/
def nextLine (t : Text) (i : Nat) : Nat :=
  if t.lineEnd i < t.length then t.lineEnd i + 1 else t.lineEnd i

theorem nextLine_le (t : Text) (i : Nat) : t.nextLine i ≤ t.length := by
  have hle := lineEnd_le t i
  rw [nextLine]
  split_ifs <;> omega

theorem le_nextLine (h : i ≤ t.length) : i ≤ t.nextLine i := by
  have hle := le_lineEnd h
  rw [nextLine]
  split_ifs <;> omega

theorem nextLine_le_of_newline (hk : i ≤ k) (hnewline : t.hasAt CodeUnit.isNewline k = true) :
    t.nextLine i ≤ k + 1 := by
  have hle := lineEnd_le_of_newline hk hnewline
  rw [nextLine]
  split_ifs <;> omega

/-- After a line feed from `i` on, a line starts no earlier than the next line of `i`. -/
theorem nextLine_le_lineStart (hi : i ≤ k) (hk : k < j)
    (hnewline : t.hasAt CodeUnit.isNewline k = true) :
    t.nextLine i ≤ t.lineStart j :=
  (nextLine_le_of_newline hi hnewline).trans (lt_lineStart hk hnewline)

theorem nextLine_mono (h : i ≤ j) : t.nextLine i ≤ t.nextLine j := by
  by_cases hend : t.lineEnd j < t.length
  · by_cases hj : j ≤ t.length
    · have hle := lineEnd_le_of_newline (h.trans (le_lineEnd hj)) (newline_lineEnd hend)
      rw [nextLine, nextLine, if_pos hend]
      split_ifs <;> omega
    · rw [lineEnd, List.drop_of_length_le (by omega)] at hend
      simp at hend
  · have hle := nextLine_le t i
    rw [nextLine.eq_def t j, if_neg hend]
    omega

/-! ### The part of a line before an offset -/

/-- Where a statement at the offset begins to take its line: at the start of the line if only blanks
are before the statement, else at the statement. -/
def lead (t : Text) (i : Nat) : Nat :=
  if (t.slice (t.lineStart i) i).isBlank then t.lineStart i else i

theorem lineStart_le_lead (t : Text) (i : Nat) : t.lineStart i ≤ t.lead i := by
  rw [lead]
  split_ifs
  · exact le_rfl
  · exact lineStart_le t i

theorem lead_le (t : Text) (i : Nat) : t.lead i ≤ i := by
  rw [lead]
  split_ifs
  · exact lineStart_le t i
  · exact le_rfl

/-- If only blanks are before the offset, units that are not blank are on the lines before. -/
theorem lt_lineStart_of_blank (hblank : (t.slice (t.lineStart i) i).isBlank = true) (hk : k < i)
    (hlength : k < t.length) (hnot : ¬ t.hasAt CodeUnit.isBlank k = true) : k < t.lineStart i :=
  Nat.lt_of_not_le fun hle ↦ hnot (hasAt_of_all_slice hblank hle hk hlength)

theorem lt_lead (hk : k < i) (hlength : k < t.length) (hnot : ¬ t.hasAt CodeUnit.isBlank k = true) :
    k < t.lead i := by
  rw [lead]
  split_ifs with hblank
  · exact lt_lineStart_of_blank hblank hk hlength hnot
  · exact hk

theorem lead_le_lead (hij : i ≤ j) (hlength : i < t.length)
    (hnot : ¬ t.hasAt CodeUnit.isBlank i = true) :
    t.lead i ≤ t.lead j := by
  rcases hij.eq_or_lt with rfl | hlt
  · exact le_rfl
  · exact (lead_le t i).trans (lt_lead hlt hlength hnot).le

/-! ### Blanks at the end -/

theorem trimEnd_append {part blanks : Text}
    (hpart : ∃ u, part.getLast? = some u ∧ u.isBlank = false) (hblank : blanks.isBlank = true) :
    trimEnd (part ++ blanks) = part := by
  obtain ⟨u, hlast, hnot⟩ := hpart
  obtain ⟨others, rfl⟩ := List.getLast?_eq_some_iff.mp hlast
  have hblanks : ∀ v ∈ blanks.reverse, v.isBlank = true := fun v hv ↦
    List.all_eq_true.mp hblank v (List.mem_reverse.mp hv)
  rw [trimEnd, dropEndWhile, List.reverse_append, List.dropWhile_append_of_pos hblanks,
    List.reverse_append, List.reverse_singleton, List.singleton_append,
    List.dropWhile_cons_of_neg (ne_true_of_eq_false hnot), List.reverse_cons, List.reverse_reverse]

theorem trimEnd_eq_nil_iff {t : Text} : t.trimEnd = [] ↔ t.isBlank = true := by
  rw [trimEnd, dropEndWhile, List.reverse_eq_nil_iff, List.dropWhile_eq_nil_iff, isBlank,
    List.all_eq_true]
  exact forall_congr' fun u ↦ imp_congr_left List.mem_reverse

/-- A text that is not blank is cut before the blanks at its end. -/
theorem exists_trimEnd {t : Text} (h : ¬ t.isBlank = true) :
    ∃ part blanks : Text, t = part ++ blanks ∧ (∃ u, part.getLast? = some u ∧ u.isBlank = false) ∧
      blanks.isBlank = true := by
  refine ⟨t.trimEnd, (t.reverse.takeWhile CodeUnit.isBlank).reverse, ?_, ?_, ?_⟩
  · rw [trimEnd, dropEndWhile, ← List.reverse_append, List.takeWhile_append_dropWhile,
      List.reverse_reverse]
  · obtain ⟨u, hu⟩ := Option.ne_none_iff_exists'.mp fun hnone ↦
      h (trimEnd_eq_nil_iff.mp (List.getLast?_eq_none_iff.mp hnone))
    have hhead := List.head?_dropWhile_not CodeUnit.isBlank t.reverse
    rw [← List.getLast?_reverse, ← dropEndWhile, ← trimEnd, hu] at hhead
    exact ⟨u, hu, hhead⟩
  · exact List.all_eq_true.mpr fun u hu ↦ List.mem_takeWhile_imp (List.mem_reverse.mp hu)

end Text

end Declutter
