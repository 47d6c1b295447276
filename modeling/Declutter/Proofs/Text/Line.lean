import Declutter.Tree.Edits
/-!
Lines of a text. A text cut around a line is `before ++ (line ++ following)`, where `before` ends in
a line feed unless it is empty and `following` begins with one unless it is empty. The offsets that
`lineStart` and `lineEnd` find are then the lengths of these parts, and taking out the line with its
line feed leaves `before` and the lines after it.
-/

set_option autoImplicit false
set_option relaxedAutoImplicit false

namespace Declutter

namespace Text

/-! ### Cuts at a line -/

/-- A line can start after the text: it is empty or ends in a line feed. -/
def EndsLine (t : Text) : Prop := ∀ u ∈ t.getLast?, u.isNewline = true

/-- A line can end before the text: it is empty or begins with a line feed. -/
def StartsAfterLine (t : Text) : Prop := ∀ u ∈ t.head?, u.isNewline = true

/-- The text is on one line. -/
def IsOnLine (t : Text) : Prop := ∀ u ∈ t, u.isNewline = false

instance (t : Text) : Decidable t.EndsLine :=
  inferInstanceAs (Decidable (∀ u ∈ t.getLast?, u.isNewline = true))

instance (t : Text) : Decidable t.StartsAfterLine :=
  inferInstanceAs (Decidable (∀ u ∈ t.head?, u.isNewline = true))

instance (t : Text) : Decidable t.IsOnLine :=
  inferInstanceAs (Decidable (∀ u ∈ t, u.isNewline = false))

theorem takeWhile_reverse_eq_nil {t : Text} (h : t.EndsLine) :
    t.reverse.takeWhile (!·.isNewline) = [] := by
  rw [EndsLine, ← List.head?_reverse] at h
  cases hreverse : t.reverse with
  | nil => rfl
  | cons u rest =>
    rw [hreverse] at h
    rw [List.takeWhile_cons_of_neg]
    simp [h u rfl]

theorem dropWhile_eq_self {t : Text} (h : t.StartsAfterLine) : t.dropWhile (!·.isNewline) = t := by
  cases t with
  | nil => rfl
  | cons u rest =>
    rw [List.dropWhile_cons_of_neg]
    simp [h u rfl]

/-! ### Offsets -/

theorem slice_append (before part following : Text) :
    (before ++ (part ++ following)).slice before.length (before.length + part.length) = part := by
  rw [slice, ← List.append_assoc, ← List.length_append, List.take_left, List.drop_left]

/-- The line that holds the end of `part` starts where `part` does. -/
theorem lineStart_append {before part : Text} (following : Text) (hbefore : before.EndsLine)
    (hpart : part.IsOnLine) :
    (before ++ (part ++ following)).lineStart (before.length + part.length) = before.length := by
  have htake : (before ++ (part ++ following)).take (before.length + part.length) =
      before ++ part := by
    rw [← List.append_assoc, ← List.length_append, List.take_left]
  have hline : ∀ u ∈ part.reverse, (!u.isNewline) = true := by
    intro u hu
    rw [hpart u (List.mem_reverse.mp hu)]
    rfl
  rw [lineStart, htake, List.reverse_append, List.takeWhile_append_of_pos hline,
    takeWhile_reverse_eq_nil hbefore, List.append_nil, List.length_append, List.length_reverse,
    Nat.add_sub_cancel]

/-- The line that holds the start of `part` ends where `part` does. -/
theorem lineEnd_append {part following : Text} (before : Text) (hpart : part.IsOnLine)
    (hfollowing : following.StartsAfterLine) :
    (before ++ (part ++ following)).lineEnd before.length = before.length + part.length := by
  have hdrop : (part ++ following).dropWhile (!·.isNewline) = following := by
    rw [List.dropWhile_append_of_pos, dropWhile_eq_self hfollowing]
    intro u hu
    rw [hpart u hu]
    rfl
  rw [lineEnd, List.drop_left, hdrop]
  simp only [List.length_append]
  omega

end Text

/-! ### Taking lines out -/

namespace Edit

theorem splice_deletion (before part following : Text) :
    (deletion before.length (before.length + part.length)).splice (before ++ (part ++ following)) =
      before ++ following := by
  have hdrop : (before ++ (part ++ following)).drop (before.length + part.length) = following := by
    rw [← List.append_assoc, ← List.length_append, List.drop_left]
  rw [splice, deletion, Int.toNat_natCast, Int.toNat_natCast, List.take_left, hdrop,
    List.append_nil]

/-- Deleting lines takes the line feed after them along, if there is one. -/
theorem splice_deleteLines (before lines following : Text) :
    (deleteLines (before ++ (lines ++ following)) before.length
      (before.length + lines.length)).splice (before ++ (lines ++ following)) = before ++
      following.tail := by
  cases following with
  | nil =>
    rw [deleteLines, if_neg (by simp), splice_deletion]
    rfl
  | cons u rest =>
    have hlength : before.length + lines.length < (before ++ (lines ++ u :: rest)).length := by
      simp only [List.length_append, List.length_cons]
      omega
    have hsplice := splice_deletion before (lines ++ [u]) rest
    rw [List.append_assoc, List.singleton_append, List.length_append, List.length_singleton,
      ← Nat.add_assoc] at hsplice
    rw [deleteLines, if_pos hlength, hsplice, List.tail_cons]

end Edit

end Declutter
