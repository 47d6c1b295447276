import Declutter.Text.Basic
import Mathlib.Data.List.Basic
import Mathlib.Data.List.TakeWhile
import Mathlib.Tactic.SplitIfs
/-!
Texts cut at a separator, and without the blanks at their ends. Pieces without the separator come
back when they are joined by it and cut again (`Text.splitOn_join`). Where the pieces are trimmed,
it does not matter whether the text was trimmed before it was cut (`Text.map_trim_splitOn_trim`).
-/

set_option autoImplicit false
set_option relaxedAutoImplicit false

namespace Declutter

namespace Text

/-! ### Pieces -/

variable {c : CodeUnit} {t : Text}

theorem splitOn_ne_nil (c : CodeUnit) (t : Text) : splitOn c t ≠ [] := by
  cases t with
  | nil => exact List.cons_ne_nil _ _
  | cons u rest =>
    rw [splitOn]
    split_ifs
    · exact List.cons_ne_nil _ _
    · split <;> exact List.cons_ne_nil _ _

theorem splitOn_of_not_mem (h : c ∉ t) : splitOn c t = [t] := by
  induction t with
  | nil => rfl
  | cons u rest ih =>
    rw [List.mem_cons, not_or] at h
    rw [splitOn, if_neg (Ne.symm h.1), ih h.2]

theorem splitOn_append (s t : Text) : splitOn c (s ++ c :: t) = splitOn c s ++ splitOn c t := by
  induction s with
  | nil =>
    show splitOn c (c :: t) = [] :: splitOn c t
    rw [splitOn, if_pos rfl]
  | cons u rest ih =>
    obtain ⟨piece, pieces, hpieces⟩ := List.exists_cons_of_ne_nil (splitOn_ne_nil c rest)
    rw [List.cons_append, splitOn, splitOn, ih, hpieces]
    split_ifs <;> rfl

theorem not_mem_of_mem_splitOn {piece : Text} (h : piece ∈ splitOn c t) : c ∉ piece := by
  induction t generalizing piece with
  | nil =>
    rw [List.mem_singleton.mp h]
    exact List.not_mem_nil
  | cons u rest ih =>
    obtain ⟨first, pieces, hpieces⟩ := List.exists_cons_of_ne_nil (splitOn_ne_nil c rest)
    rw [splitOn, hpieces] at h
    split_ifs at h with hu
    · rcases List.mem_cons.mp h with rfl | h
      · exact List.not_mem_nil
      · exact ih (hpieces ▸ h)
    · rcases List.mem_cons.mp h with rfl | h
      · have hfirst : c ∉ first := ih (hpieces ▸ List.mem_cons_self)
        exact List.not_mem_cons_of_ne_of_not_mem (Ne.symm hu) hfirst
      · exact ih (hpieces ▸ List.mem_cons_of_mem first h)

theorem splitOn_join {names : List Text} (hne : names ≠ []) (h : ∀ name ∈ names, c ∉ name) :
    splitOn c (join [c] names) = names := by
  induction names with
  | nil => exact absurd rfl hne
  | cons name rest ih =>
    rw [List.forall_mem_cons] at h
    cases rest with
    | nil => exact splitOn_of_not_mem h.1
    | cons next rest =>
      rw [join, List.append_assoc, List.singleton_append, splitOn_append, splitOn_of_not_mem h.1,
        ih (List.cons_ne_nil _ _) h.2, List.singleton_append]
      exact fun hnil ↦ List.cons_ne_nil _ _ hnil

/-- A text that ends in the separator has nothing after it. -/
theorem getLast?_splitOn_of_getLast? (h : t.getLast? = some c) :
    (splitOn c t).getLast? = some [] := by
  obtain ⟨s, rfl⟩ := List.getLast?_eq_some_iff.mp h
  rw [splitOn_append]
  exact List.getLast?_append_cons _ _ _

/-- What follows the last separator belongs to the last piece. -/
theorem splitOn_append_of_not_mem (t : Text) {s : Text} (h : c ∉ s) :
    ∃ pieces last, splitOn c t = pieces ++ [last] ∧ splitOn c (t ++ s) = pieces ++ [last ++ s] := by
  induction t with
  | nil => exact ⟨[], [], rfl, splitOn_of_not_mem h⟩
  | cons u rest ih =>
    obtain ⟨pieces, last, hrest, happend⟩ := ih
    rw [List.cons_append, splitOn, splitOn, hrest, happend]
    split_ifs
    · exact ⟨[] :: pieces, last, rfl, rfl⟩
    · cases pieces with
      | nil => exact ⟨[], u :: last, rfl, rfl⟩
      | cons piece pieces => exact ⟨(u :: piece) :: pieces, last, rfl, rfl⟩

/-! ### Blanks at the ends -/

theorem trimStart_append_of_isBlank {blanks : Text} (h : blanks.isBlank = true) (t : Text) :
    trimStart (blanks ++ t) = trimStart t := List.dropWhile_append_of_pos (List.all_eq_true.mp h)

theorem trimEnd_append_of_isBlank (t : Text) {blanks : Text} (h : blanks.isBlank = true) :
    trimEnd (t ++ blanks) = trimEnd t := by
  have hblanks : ∀ u ∈ blanks.reverse, u.isBlank = true := fun u hu ↦
    List.all_eq_true.mp h u (List.mem_reverse.mp hu)
  rw [trimEnd, trimEnd, dropEndWhile, dropEndWhile, List.reverse_append,
    List.dropWhile_append_of_pos hblanks]

theorem trim_append_left {blanks : Text} (h : blanks.isBlank = true) (t : Text) :
    trim (blanks ++ t) = trim t := by
  rw [trim, trim, trimStart_append_of_isBlank h]

theorem trim_append_right (t : Text) {blanks : Text} (h : blanks.isBlank = true) :
    trim (t ++ blanks) = trim t := by
  have hnil : trimStart blanks = [] := List.dropWhile_eq_nil_iff.mpr (List.all_eq_true.mp h)
  rw [trim, trim, trimStart, trimStart, List.dropWhile_append]
  split_ifs with hblank
  · rw [← trimStart, hnil, List.isEmpty_iff.mp hblank]
  · exact trimEnd_append_of_isBlank _ h

/-- A text is its trimmed part between blanks. -/
theorem exists_trim (t : Text) :
    ∃ before after : Text, t = before ++ (t.trim ++ after) ∧ before.isBlank = true ∧
    after.isBlank = true := by
  refine ⟨t.takeWhile CodeUnit.isBlank, (t.trimStart.reverse.takeWhile CodeUnit.isBlank).reverse,
    ?_, ?_, ?_⟩
  · rw [trim, trimEnd, dropEndWhile, ← List.reverse_append, List.takeWhile_append_dropWhile,
      List.reverse_reverse, trimStart, List.takeWhile_append_dropWhile]
  · exact List.all_eq_true.mpr fun u ↦ List.mem_takeWhile_imp
  · exact List.all_eq_true.mpr fun u hu ↦ List.mem_takeWhile_imp (List.mem_reverse.mp hu)

theorem trim_eq_nil_iff : t.trim = [] ↔ t.isBlank = true := by
  obtain ⟨before, after, ht, hbefore, hafter⟩ := exists_trim t
  constructor
  · intro hnil
    rw [hnil, List.nil_append] at ht
    rw [ht, isBlank, List.all_append, Bool.and_eq_true]
    exact ⟨hbefore, hafter⟩
  · intro hblank
    rw [← List.append_nil t, trim_append_left hblank]
    rfl

/-- A text without blanks is trimmed. -/
theorem trim_of_not_isBlank (h : ∀ u ∈ t, u.isBlank = false) : t.trim = t := by
  have hkeep : ∀ s : Text, (∀ u ∈ s, u.isBlank = false) → s.dropWhile CodeUnit.isBlank = s :=
    fun s hs ↦ by
    cases s with
    | nil => rfl
    | cons u s => rw [List.dropWhile_cons_of_neg (by simp [hs u List.mem_cons_self])]
  rw [trim, trimStart, hkeep t h, trimEnd, dropEndWhile, hkeep _ fun u hu ↦
    h u (List.mem_reverse.mp hu), List.reverse_reverse]

/-- Trimming a text before it is cut into pieces to be trimmed makes no difference. -/
theorem map_trim_splitOn_trim (hc : c.isBlank = false) (t : Text) :
    (splitOn c t.trim).map trim = (splitOn c t).map trim := by
  have hnot : ∀ blanks : Text, blanks.isBlank = true → c ∉ blanks := fun blanks hblanks hmem ↦ by
    rw [List.all_eq_true.mp hblanks c hmem] at hc
    exact Bool.noConfusion hc
  have hleft : ∀ blanks s : Text, blanks.isBlank = true →
      (splitOn c (blanks ++ s)).map trim = (splitOn c s).map trim := by
    intro blanks s hblanks
    induction blanks with
    | nil => rfl
    | cons u blanks ih =>
      have hu : u ≠ c := fun hu ↦ hnot _ hblanks (hu ▸ List.mem_cons_self)
      rw [isBlank, List.all_cons, Bool.and_eq_true] at hblanks
      have hfirst : Text.isBlank [u] = true := by
        rw [isBlank, List.all_cons, hblanks.1, List.all_nil, Bool.and_true]
      have hrest := ih hblanks.2
      obtain ⟨piece, pieces, hpieces⟩ := List.exists_cons_of_ne_nil (splitOn_ne_nil c (blanks ++ s))
      rw [hpieces] at hrest
      have htrim : trim (u :: piece) = trim piece := trim_append_left hfirst piece
      rw [List.cons_append, splitOn, if_neg hu, hpieces, ← hrest, List.map_cons,
        List.map_cons, htrim]
  obtain ⟨before, after, ht, hbefore, hafter⟩ := exists_trim t
  obtain ⟨pieces, last, htrim, happend⟩ := splitOn_append_of_not_mem t.trim (hnot after hafter)
  calc (splitOn c t.trim).map trim
      = (splitOn c (t.trim ++ after)).map trim := by
        rw [htrim, happend, List.map_append, List.map_append, List.map_singleton,
          List.map_singleton, trim_append_right last hafter]
    _ = (splitOn c (before ++ (t.trim ++ after))).map trim := (hleft before _ hbefore).symm
    _ = (splitOn c t).map trim := by rw [← ht]

end Text

end Declutter
