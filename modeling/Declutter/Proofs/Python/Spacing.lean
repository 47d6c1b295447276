import Declutter.Proofs.Python.Token
import Declutter.Proofs.Text.Separator
/-!
What stands between the tokens of a text: blanks, comments, backslashes at which a line goes on, and
semicolons between statements (`Spacing`). Comments are closed in front of a token
(`Spacing.uncommented`), and the semicolons outside them can be counted
(`Spacing.count_uncomment`).

Where the line structure ends a statement or a block, only blanks are left on the line
(`Layout.blank_of_read`). That takes a text in which no line goes on behind a backslash
(`Text.isUnbroken`).
-/

set_option autoImplicit false
set_option relaxedAutoImplicit false

namespace Declutter

/-- A unit that stands between tokens, outside comments. -/
def CodeUnit.isFiller (u : CodeUnit) : Bool := u.isBlank || Python.Cursor.isGap u || u == '\\'

theorem CodeUnit.ne_of_isFiller {u : CodeUnit} (h : u.isFiller = true) : u ≠ '#' ∧ u ≠ ';' := by
  constructor
  · rintro rfl
    exact absurd h (by decide)
  · rintro rfl
    exact absurd h (by decide)

namespace Python

/-! ### What is passed over -/

theorem isFiller_gap (t : Text) :
    (t.take (t.takeWhile Cursor.isGap).length).all CodeUnit.isFiller = true := by
  rw [← List.prefix_iff_eq_take.mp (List.takeWhile_prefix _)]
  refine List.all_eq_true.mpr fun u hu ↦ ?_
  rw [CodeUnit.isFiller, List.mem_takeWhile_imp hu, Bool.or_true, Bool.true_or]

theorem isFiller_continuation (t : Text) :
    (t.take (Cursor.continuationLength t)).all CodeUnit.isFiller = true := by
  fun_cases Cursor.continuationLength t <;> simp [CodeUnit.isFiller, CodeUnit.isBlank]

theorem exists_afterGap (t : Text) :
    ∃ gap : Text, t = gap ++ Parse.afterGap t ∧ gap.all CodeUnit.isFiller = true := by
  fun_induction Parse.afterGap t with
  | case1 rest ih =>
    obtain ⟨gap, hgap, hfiller⟩ := ih
    exact ⟨92 :: 13 :: 10 :: gap, congrArg (92 :: 13 :: 10 :: ·) hgap, hfiller⟩
  | case2 rest ih =>
    obtain ⟨gap, hgap, hfiller⟩ := ih
    exact ⟨92 :: 10 :: gap, congrArg (92 :: 10 :: ·) hgap, hfiller⟩
  | case3 u rest _ _ hu ih =>
    obtain ⟨gap, hgap, hfiller⟩ := ih
    refine ⟨u :: gap, congrArg (u :: ·) hgap, ?_⟩
    rw [List.all_cons, hfiller, CodeUnit.isFiller, hu, Bool.or_true, Bool.true_or, Bool.and_true]
  | case4 u rest => exact ⟨[], rfl, rfl⟩
  | case5 => exact ⟨[], rfl, rfl⟩

theorem isFiller_afterGap (t : Text) :
    (t.take (t.length - (Parse.afterGap t).length)).all CodeUnit.isFiller = true := by
  obtain ⟨gap, hgap, hfiller⟩ := exists_afterGap t
  have hlength := congrArg List.length hgap
  rw [List.length_append] at hlength
  rwa [hlength, Nat.add_sub_cancel, hgap, List.take_left' rfl]

/-! ### Spacing -/

/-- From the offset `i` up to `j` there are `n` semicolons, and otherwise only units that stand
between tokens and comments up to the end of their lines. -/
inductive Spacing (t : Text) : (n i j : Nat) → Prop where
  | refl (i : Nat) : Spacing t 0 i i
  | filler {n i j : Nat} (hi : t.hasAt CodeUnit.isFiller i = true)
      (rest : Spacing t n (i + 1) j) : Spacing t n i j
  | comment {n i j : Nat} (hi : t.hasAt (· == '#') i = true)
      (rest : Spacing t n (t.lineEnd i) j) : Spacing t n i j
  | semicolon {n i j : Nat} (hi : t.hasAt (· == ';') i = true)
      (rest : Spacing t n (i + 1) j) : Spacing t (n + 1) i j

attribute [grind ←] Spacing.refl

namespace Spacing

variable {t : Text} {n m i j k : Nat}

theorem le (h : Spacing t n i j) : i ≤ j := by
  induction h with
  | refl => exact le_rfl
  | filler hi rest ih => exact (Nat.le_succ _).trans ih
  | comment hi rest ih => exact (Text.le_lineEnd (Text.lt_length_of_hasAt hi).le).trans ih
  | semicolon hi rest ih => exact (Nat.le_succ _).trans ih

theorem trans (h : Spacing t n i k) (h' : Spacing t m k j) : Spacing t (n + m) i j := by
  induction h with
  | refl => rwa [Nat.zero_add]
  | filler hi rest ih => exact .filler hi (ih h')
  | comment hi rest ih => exact .comment hi (ih h')
  | semicolon hi rest ih =>
    rw [Nat.add_right_comm]
    exact .semicolon hi (ih h')

/-- Between two offsets there are only units that stand between tokens. -/
theorem of_forall (hij : i ≤ j)
    (h : ∀ k, i ≤ k → k < j → t.hasAt CodeUnit.isFiller k = true) : Spacing t 0 i j := by
  induction hij using Nat.decreasingInduction with
  | self => exact .refl j
  | of_succ i hi ih => exact .filler (h i le_rfl hi) (ih fun k hk ↦ h k (Nat.le_of_succ_le hk))

theorem not_comment_of_isCode (h : t.hasAt CodeUnit.isCode i = true) :
    ¬ t.hasAt (· == '#') i = true :=
  Text.not_hasAt_of_hasAt (fun _ hu ↦ beq_eq_false_iff_ne.mpr (CodeUnit.isCode_iff.mp hu).2.2.1) h

theorem not_newline_of_isCode (h : t.hasAt CodeUnit.isCode i = true) :
    ¬ t.hasAt CodeUnit.isNewline i = true := fun hnewline ↦
  Text.not_hasAt_of_hasAt (fun _ hu ↦ (CodeUnit.isCode_iff.mp hu).1) h
    (Text.hasAt_mono (fun _ ↦ CodeUnit.isBlank_of_isNewline) hnewline)

theorem uncommented_cons (hi : ¬ t.hasAt (· == '#') i = true) (h : t.Uncommented (i + 1) j) :
    t.Uncommented i j := fun k hk hik hat ↦ by
  obtain rfl | hlt := hik.eq_or_lt
  · exact absurd hat hi
  · exact h k hk hlt hat

/-- In front of code no comment is open. -/
theorem uncommented (h : Spacing t n i j) (hj : t.hasAt CodeUnit.isCode j = true) :
    t.Uncommented i j := by
  induction h with
  | refl i =>
    intro k hk hik hat
    obtain rfl := hk.antisymm hik
    exact absurd hat (not_comment_of_isCode hj)
  | filler hi rest ih =>
    refine uncommented_cons (Text.not_hasAt_of_hasAt (fun u hu ↦ ?_) hi) (ih hj)
    exact beq_eq_false_iff_ne.mpr (CodeUnit.ne_of_isFiller hu).1
  | @comment n i j hi rest ih =>
    intro k hk hik hat
    obtain hlt | hle := Nat.lt_or_ge k (t.lineEnd i)
    · -- the comment ends before `j`, where there is code
      have hnewline : t.hasAt CodeUnit.isNewline (t.lineEnd i) = true :=
        Text.newline_lineEnd (rest.le.trans_lt (Text.lt_length_of_hasAt hj))
      have hne : t.lineEnd i ≠ j := fun heq ↦ not_newline_of_isCode hj (heq ▸ hnewline)
      exact ⟨t.lineEnd i, lt_of_le_of_ne rest.le hne, hlt, hnewline⟩
    · exact ih hj k hk hle hat
  | semicolon hi rest ih =>
    refine uncommented_cons (Text.not_hasAt_of_hasAt (fun u hu ↦ ?_) hi) (ih hj)
    rw [beq_iff_eq.mp hu]
    rfl

/-- The rest of a comment is left out, up to a line feed. -/
theorem uncomment_comment {body rest : Text} (hbody : ∀ u ∈ body, u.isNewline = false)
    (hrest : ∀ u ∈ rest.head?, u.isNewline = true) (inside : Bool) :
    Text.uncomment true (body ++ rest) = Text.uncomment inside rest := by
  induction body with
  | nil =>
    cases rest with
    | nil => cases inside <;> rfl
    | cons u rest =>
      have hu : u.isNewline = true := hrest u rfl
      rw [List.nil_append, Text.uncomment, Text.uncomment, if_pos hu, if_pos hu]
  | cons u body ih =>
    rw [List.forall_mem_cons] at hbody
    rw [List.cons_append, Text.uncomment, hbody.1, if_neg Bool.false_ne_true, Bool.true_or,
      if_pos rfl, ih hbody.2]

theorem lt_lineEnd_of_comment (h : t.hasAt (· == '#') i = true) : i < t.lineEnd i := by
  have hlength := Text.lt_length_of_hasAt h
  refine lt_of_le_of_ne (Text.le_lineEnd hlength.le) fun heq ↦ ?_
  have hnewline := Text.newline_lineEnd (heq ▸ hlength : t.lineEnd i < t.length)
  rw [← heq] at hnewline
  refine Text.not_hasAt_of_hasAt (fun u hu ↦ ?_) h hnewline
  rw [beq_iff_eq.mp hu]
  rfl

/-- No line feed is in a line before its end. -/
theorem not_newline_of_mem_slice : ∀ u ∈ t.slice (i + 1) (t.lineEnd i), u.isNewline = false := by
  intro u hu
  obtain ⟨k, hk⟩ := List.getElem?_of_mem hu
  rw [Text.getElem?_slice] at hk
  split_ifs at hk with hlt
  refine eq_false_of_ne_true fun hnewline ↦ ?_
  have hle := Text.lineEnd_le_of_newline (t := t) (i := i) (k := i + 1 + k) (by omega)
    (Text.hasAt_eq_true.mpr ⟨u, hk, hnewline⟩)
  omega

/-- What is behind the end of a line begins with a line feed. -/
theorem newline_of_mem_head?_slice :
    ∀ u ∈ (t.slice (t.lineEnd i) j).head?, u.isNewline = true := by
  intro u hu
  rw [List.head?_eq_getElem?, Text.getElem?_slice, Nat.add_zero, Option.mem_def] at hu
  split_ifs at hu with hlt
  obtain ⟨v, hv, hnewline⟩ := Text.hasAt_eq_true.mp
    (Text.newline_lineEnd (List.getElem?_eq_some_iff.mp hu).1)
  obtain rfl := Option.some.inj (hu.symm.trans hv)
  exact hnewline

/-- Outside comments there are as many semicolons as are counted. -/
theorem count_uncomment (h : Spacing t n i j) :
    (Text.uncomment false (t.slice i j)).count (CodeUnit.ofChar ';') = n := by
  induction h with
  | refl i =>
    rw [Text.slice, List.drop_of_length_le (List.length_take_le i t)]
    rfl
  | @filler n i j hi rest ih =>
    obtain ⟨u, hu, hfiller⟩ := Text.hasAt_eq_true.mp hi
    obtain ⟨hsign, hsemicolon⟩ := CodeUnit.ne_of_isFiller hfiller
    rw [Text.slice_eq_cons rest.le hu, Text.uncomment, Bool.false_or, beq_eq_false_iff_ne.mpr hsign,
      if_neg Bool.false_ne_true, ite_self, List.count_cons_of_ne hsemicolon, ih]
  | @comment n i j hi rest ih =>
    obtain ⟨u, hu, heq⟩ := Text.hasAt_eq_true.mp hi
    obtain rfl := beq_iff_eq.mp heq
    have hlt : i < t.lineEnd i := lt_lineEnd_of_comment hi
    rw [← Text.slice_append_slice hlt.le rest.le, Text.slice_eq_cons hlt hu, List.cons_append,
      Text.uncomment, if_neg (by decide), if_pos (by decide),
      uncomment_comment not_newline_of_mem_slice newline_of_mem_head?_slice false, ih]
  | @semicolon n i j hi rest ih =>
    obtain ⟨u, hu, heq⟩ := Text.hasAt_eq_true.mp hi
    obtain rfl := beq_iff_eq.mp heq
    rw [Text.slice_eq_cons rest.le hu, Text.uncomment, if_neg (by decide), if_neg (by decide),
      List.count_cons_self, ih]

end Spacing

end Python

/-! ### Ends of lines -/

namespace Text

/-- Whether no line of the text goes on behind a backslash at its end. -/
def isUnbroken : Text → Bool
  | [] => true
  | u :: rest =>
    (u != '\\' || rest.head?.any fun (v : CodeUnit) ↦ v != '\n' && v != '\r') && isUnbroken rest

theorem isUnbroken_drop {t : Text} (h : t.isUnbroken = true) (i : Nat) :
    isUnbroken (t.drop i) = true := by
  induction t generalizing i with
  | nil => rwa [List.drop_nil]
  | cons u rest ih =>
    cases i with
    | zero => exact h
    | succ i =>
      rw [isUnbroken, Bool.and_eq_true] at h
      exact ih h.2 i

/-- The rest of a line. -/
theorem slice_lineEnd (t : Text) (i : Nat) :
    t.slice i (t.lineEnd i) = (t.drop i).takeWhile (!·.isNewline) := by
  have hlength := congrArg List.length
    (List.takeWhile_append_dropWhile (p := (!CodeUnit.isNewline ·)) (l := t.drop i))
  rw [List.length_append, List.length_drop] at hlength
  rw [slice, List.drop_take, lineEnd, List.prefix_iff_eq_take.mp (List.takeWhile_prefix _)]
  congr 1
  omega

/-- If only blanks are left on a line, it is closed. -/
theorem closesLine_of_blank {t : Text} {i : Nat}
    (h : ((t.drop i).takeWhile (!·.isNewline)).all CodeUnit.isBlank = true) :
    t.closesLine i = true := by
  have hslice := (slice_lineEnd t i).trans (List.append_nil _).symm
  refine closesLine_of_slice hslice (fun u hu ↦ ?_) rfl
  rw [CodeUnit.isSolid, List.all_eq_true.mp h u hu]
  rfl

theorem closesLine_eq (t : Text) (i : Nat) : t.closesLine i =
    Edit.holdsNoCode (((t.drop i).takeWhile (!·.isNewline)).dropWhile (!·.isSolid)) := by
  rw [closesLine, slice_lineEnd]

/-- A line that is closed is closed at a blank before, too. -/
theorem closesLine_of_succ {t : Text} {i : Nat} (hi : t.hasAt CodeUnit.isBlank i = true)
    (h : t.closesLine (i + 1) = true) : t.closesLine i = true := by
  obtain ⟨u, hu, hblank⟩ := hasAt_eq_true.mp hi
  obtain ⟨hlt, rfl⟩ := List.getElem?_eq_some_iff.mp hu
  rw [closesLine_eq] at h ⊢
  rw [List.drop_eq_getElem_cons hlt]
  by_cases hnewline : CodeUnit.isNewline t[i] = true
  · rw [List.takeWhile_cons_of_neg (by simp [hnewline])]
    rfl
  · rwa [List.takeWhile_cons_of_pos (by simp [hnewline]), List.dropWhile_cons_of_pos]
    simp [CodeUnit.isSolid, hblank]

theorem closesLine_of_le {t : Text} {i j : Nat} (hij : i ≤ j)
    (hblank : ∀ k, i ≤ k → k < j → t.hasAt CodeUnit.isBlank k = true)
    (h : t.closesLine j = true) : t.closesLine i = true := by
  induction hij using Nat.decreasingInduction with
  | self => exact h
  | of_succ i hi ih =>
    exact closesLine_of_succ (hblank i le_rfl hi) (ih fun k hk ↦ hblank k (Nat.le_of_succ_le hk))

end Text

namespace Python.Layout

/-- Where a line ends for the line structure, only blanks are left on it. -/
theorem blank_of_skip {heed : Bool} {g g' : Gap} {t rest : Text}
    (h : skip heed g t = some (g', rest)) (hunbroken : t.isUnbroken = true)
    (hopen : g.lineEnded = false ∧ g.inComment = false) (hended : g'.lineEnded = true) :
    (t.takeWhile (!·.isNewline)).all CodeUnit.isBlank = true := by
  fun_induction skip heed g t
  all_goals grind [Text.isUnbroken, CodeUnit.isNewline, CodeUnit.isBlank, List.takeWhile_nil,
    List.takeWhile_cons]

/-- Where the line structure ends a statement or a block, only blanks are left on the line. -/
theorem blank_of_read {e : Expected} {columns : List Nat} {inFormat : Bool} {t : Text}
    (h : read e columns inFormat t = .newline ∨ read e columns inFormat t = .dedent)
    (hunbroken : t.isUnbroken = true) :
    (t.takeWhile (!·.isNewline)).all CodeUnit.isBlank = true := by
  unfold read at h
  split at h
  · grind
  · next g rest hskip =>
    refine blank_of_skip hskip hunbroken ⟨rfl, rfl⟩ ?_
    grind

end Python.Layout

end Declutter
