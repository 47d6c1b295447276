import Declutter.Diff.Script
import Declutter.Proofs.Comment.Settled
/-!
Taking comments out of a text, line by line. The scan finds comments by their offsets, and their
edits reach over blanks and line endings; yet what comes out is the physical lines of the text, one
after the other, each as it was or without the comment on it (`Text.strip_linewise`). A comment runs
to the end of its line, so that no line loses more than one, and the blanks that go with it never
reach behind the start of its line.
-/

set_option autoImplicit false
set_option relaxedAutoImplicit false

namespace Declutter

/-! ### Physical lines -/

/-- A physical line: the offset at which it starts, and its units with the line feed that ends it,
if there is one. -/
structure Line where
  start : Nat
  text : Text
deriving DecidableEq, Repr

namespace Line

/-- Whether the unit at the offset is on the line. -/
def holds (l : Line) (i : Nat) : Bool :=
  decide (l.start ≤ i) && decide (i < l.start + l.text.length)

/-- What ends the line: a line feed, with the carriage return before it if there is one, or
nothing. -/
def ending (l : Line) : Text :=
  if l.text.getLast? = some 10 then (if l.text.dropLast.getLast? = some 13 then [13, 10] else [10])
  else []

/-- The line without the comment that starts at an offset on it. -/
def without (rules : CommentRules) (l : Line) (start : Nat) : Text :=
  let before : Text := l.text.take (start - l.start)
  if before.isBlank then (if rules.preserveBlankLines then l.ending else [])
  else before.trimEnd ++ l.ending

/-- What is left of the line if the comments go that start at the given offsets. -/
def remainder (rules : CommentRules) (starts : List Nat) (l : Line) : Text :=
  match starts.find? l.holds with
  | some start => l.without rules start
  | none => l.text

variable {starts : List Nat} {l : Line} {i : Nat}

theorem holds_eq_false (h : i < l.start ∨ l.start + l.text.length ≤ i) : l.holds i = false := by
  rw [holds, Bool.and_eq_false_iff, decide_eq_false_iff_not, decide_eq_false_iff_not]
  omega

theorem remainder_of_none (rules : CommentRules) (h : ∀ i ∈ starts, l.holds i = false) :
    l.remainder rules starts = l.text := by
  have hnone : starts.find? l.holds = none := List.find?_eq_none.mpr fun i hi ↦ by simp [h i hi]
  rw [remainder, hnone]

theorem remainder_cons_of_not (rules : CommentRules) (starts : List Nat) (h : l.holds i = false) :
    l.remainder rules (i :: starts) = l.remainder rules starts := by
  rw [remainder, remainder, List.find?_cons_of_neg (by simp [h])]

theorem remainder_cons_of_holds (rules : CommentRules) (starts : List Nat) (h : l.holds i = true) :
    l.remainder rules (i :: starts) = l.without rules i := by
  rw [remainder, List.find?_cons_of_pos h]

end Line

namespace Text

/-- The physical lines of a text whose first unit is at the offset `start`. -/
def linesFrom (start : Nat) : Text → List Line
  | [] => []
  | u :: rest =>
    if u.isNewline then ⟨start, [u]⟩ :: linesFrom (start + 1) rest
    else match linesFrom (start + 1) rest with
      | [] => [⟨start, [u]⟩]
      | l :: others => ⟨start, u :: l.text⟩ :: others

/-- The physical lines of a text. -/
def physicalLines (t : Text) : List Line := t.linesFrom 0

variable {s t part : Text} {i : Nat}

theorem linesFrom_newline (i : Nat) (t : Text) :
    linesFrom i (10 :: t) = ⟨i, [10]⟩ :: linesFrom (i + 1) t := rfl

theorem linesFrom_cons_of_not {u : CodeUnit} (hu : u.isNewline = false) {l : Line}
    {others : List Line} (h : linesFrom (i + 1) t = l :: others) :
    linesFrom i (u :: t) = ⟨i, u :: l.text⟩ :: others := by
  rw [linesFrom, hu, if_neg Bool.false_ne_true, h]

theorem linesFrom_ne_nil (i : Nat) (h : t ≠ []) : linesFrom i t ≠ [] := by
  obtain ⟨u, rest, rfl⟩ := List.exists_cons_of_ne_nil h
  rw [linesFrom]
  split
  · simp
  · split <;> simp

/-- The texts of the lines are the lines that a diff compares. -/
theorem map_text_linesFrom (i : Nat) (t : Text) : (linesFrom i t).map (·.text) = t.lines := by
  induction t generalizing i with
  | nil => rfl
  | cons u rest ih =>
    rw [linesFrom, lines, ← ih (i + 1)]
    split
    · rfl
    · split <;> simp_all

/-- The lines of a text, one after the other, are the text. -/
theorem flatMap_linesFrom (i : Nat) (t : Text) : (linesFrom i t).flatMap (·.text) = t := by
  induction t generalizing i with
  | nil => rfl
  | cons u rest ih =>
    have hrest := ih (i + 1)
    rw [linesFrom]
    split
    · simp [hrest]
    · split
      · next hnil => simp_all
      · next l others hcons =>
        rw [hcons, List.flatMap_cons] at hrest
        simp [hrest]

/-- A line lies inside the text. -/
theorem bounds_of_mem_linesFrom {l : Line} (h : l ∈ linesFrom i t) :
    i ≤ l.start ∧ l.start + l.text.length ≤ i + t.length := by
  induction t generalizing i l with
  | nil => simp [linesFrom] at h
  | cons u rest ih =>
    have hlater : ∀ k ∈ linesFrom (i + 1) rest, i ≤ k.start ∧
        k.start + k.text.length ≤ i + (u :: rest).length := by
      intro k hk
      have hk' := ih hk
      rw [List.length_cons]
      omega
    rw [linesFrom] at h
    split at h
    · rcases List.mem_cons.mp h with rfl | h
      · simp
      · exact hlater l h
    · split at h
      · rw [List.mem_singleton.mp h]
        simp
      · next k others hcons =>
        rw [hcons] at hlater
        rcases List.mem_cons.mp h with rfl | h
        · have hk := (ih (hcons ▸ List.mem_cons_self) : i + 1 ≤ k.start ∧ _)
          simp only [List.length_cons]
          omega
        · exact hlater l (List.mem_cons_of_mem _ h)

/-- The lines of two texts, of which the first ends a line, are the lines of the one and of the
other. -/
theorem linesFrom_append (i : Nat) (hs : s.EndsLine) (t : Text) :
    linesFrom i (s ++ t) = linesFrom i s ++ linesFrom (i + s.length) t := by
  induction s generalizing i with
  | nil => rfl
  | cons u rest ih =>
    by_cases hrest : rest = []
    · subst hrest
      have hu : u = 10 := beq_iff_eq.mp (hs u rfl)
      rw [hu]
      rfl
    · have hends : Text.EndsLine rest := by
        intro v hv
        refine hs v ?_
        rwa [List.getLast?_cons_of_ne_nil hrest]
      have hlater := ih (i + 1) hends
      have hlength : i + 1 + rest.length = i + (u :: rest).length := by
        rw [List.length_cons]
        omega
      rw [hlength] at hlater
      cases hu : u.isNewline with
      | true =>
        obtain rfl : u = 10 := beq_iff_eq.mp hu
        rw [List.cons_append, linesFrom_newline, linesFrom_newline, hlater, List.cons_append]
      | false =>
        obtain ⟨l, others, hlines⟩ := List.exists_cons_of_ne_nil (linesFrom_ne_nil (i + 1) hrest)
        rw [hlines, List.cons_append] at hlater
        rw [List.cons_append, linesFrom_cons_of_not hu hlater, linesFrom_cons_of_not hu hlines,
          List.cons_append]

/-- A text without a line feed is one line. -/
theorem linesFrom_of_isOnLine (i : Nat) (hpart : part.IsOnLine) (hne : part ≠ []) :
    linesFrom i part = [⟨i, part⟩] := by
  induction part generalizing i with
  | nil => exact absurd rfl hne
  | cons u rest ih =>
    rw [IsOnLine, List.forall_mem_cons] at hpart
    by_cases hrest : rest = []
    · subst hrest
      rw [linesFrom, hpart.1]
      rfl
    · exact linesFrom_cons_of_not hpart.1 (ih (i + 1) hpart.2 hrest)

/-- A text with one line feed, at its end, is one line. -/
theorem linesFrom_concat (i : Nat) (hpart : part.IsOnLine) :
    linesFrom i (part ++ [10]) = [⟨i, part ++ [10]⟩] := by
  induction part generalizing i with
  | nil => rfl
  | cons u rest ih =>
    rw [IsOnLine, List.forall_mem_cons] at hpart
    rw [List.cons_append, linesFrom_cons_of_not hpart.1 (ih (i + 1) hpart.2)]

/-- A part of a line and what ends the line make the first line of a text. -/
theorem linesFrom_ending (i : Nat) {ending rest : Text} (hpart : part.IsOnLine) (hne : part ≠ [])
    (hending : ending.IsEnding rest) :
    linesFrom i (part ++ (ending ++ rest)) =
      ⟨i, part ++ ending⟩ :: linesFrom (i + (part ++ ending).length) rest := by
  have hreturn : (part ++ [13]).IsOnLine :=
    List.forall_mem_append.mpr ⟨hpart, by simp [CodeUnit.isNewline]⟩
  rcases hending with rfl | rfl | ⟨rfl, rfl⟩
  · rw [← List.append_assoc, linesFrom_append i (endsLine_concat part), linesFrom_concat i hpart,
      List.singleton_append]
  · have hline := linesFrom_append i (endsLine_concat (part ++ [13])) rest
    rw [linesFrom_concat i hreturn, List.singleton_append] at hline
    simpa using hline
  · rw [List.append_nil, List.append_nil, linesFrom_of_isOnLine i hpart hne]
    rfl

end Text

namespace Strip

open Lexeme

variable {rules : CommentRules} {before : Text}

/-! ### Lines around a comment -/

/-- The offsets at which the comments start that go in a text after `before`. -/
def starts (rules : CommentRules) (before t : Text) : List Nat :=
  ((sightings before (split t)).filter (·.isRemoved rules)).map (·.before.length)

/-- What is seen in a text starts in it. -/
theorem le_of_mem_sightings {xs : List Lexeme} {s : Sighting} (h : s ∈ sightings before xs) :
    before.length ≤ s.before.length := by
  induction xs generalizing before with
  | nil => exact nomatch h
  | cons x xs ih =>
    have hlater : s ∈ sightings (before ++ x.text) xs → before.length ≤ s.before.length := by
      intro hs
      have hle := ih hs
      rw [List.length_append] at hle
      omega
    rw [sightings] at h
    split_ifs at h
    · rcases List.mem_cons.mp h with rfl | h
      · exact le_rfl
      · exact hlater h
    · exact hlater h

theorem le_of_mem_starts {t : Text} {i : Nat} (h : i ∈ starts rules before t) :
    before.length ≤ i := by
  obtain ⟨s, hs, rfl⟩ := List.mem_map.mp h
  exact le_of_mem_sightings (List.mem_filter.mp hs).1

namespace Cut

theorem starts_text (c : Cut rules before) :
    starts rules before c.text = (before ++ (c.kept ++ c.blanks)).length ::
    starts rules c.past c.rest := by
  rw [starts, c.filter_sightings, List.map_cons, starts]
  rfl

theorem isOnLine_comment (c : Cut rules before) : c.comment.IsOnLine := by
  have hfirst := c.isFirst
  generalize c.comment = comment at hfirst
  cases hfirst with
  | comment line stop => exact List.forall_mem_cons.mpr ⟨rfl, line⟩

/-- The line of the comment ends in what comes after the comment. -/
theorem ending_line (c : Cut rules before) (start : Nat) (part : Text) :
    Line.ending ⟨start, part ++ (c.comment ++ c.ending)⟩ = c.ending := by
  have hline := c.isOnLine_comment
  have hfirst := c.isFirst
  have hne := c.comment_ne_nil
  have hending := c.isEnding
  generalize c.ending = ending at hfirst hending ⊢
  generalize c.comment = comment at hfirst hline hne ⊢
  generalize c.rest = rest at hfirst hending
  have hlast : (part ++ comment).getLast? = comment.getLast? := by
    rw [List.getLast?_append, List.getLast?_eq_some_getLast hne, Option.some_or]
  have hnewline : comment.getLast? ≠ some 10 := by
    intro h
    have hten := hline 10 (List.mem_of_getLast? h)
    exact Bool.noConfusion hten
  rcases hending with rfl | rfl | ⟨rfl, rfl⟩
  · have hreturn : comment.getLast? ≠ some 13 := by
      cases hfirst with
      | @comment body _ line stop =>
        have hbody : body.getLast? ≠ some 13 := by
          rcases stop with hnil | ⟨-, hlast⟩ | ⟨s, hs⟩
          · simp at hnil
          · exact hlast
          · simp at hs
        intro h
        rw [List.getLast?_cons] at h
        cases hbodyLast : body.getLast? with
        | none => simp [hbodyLast] at h
        | some u => simp_all
    rw [Line.ending, ← List.append_assoc, List.getLast?_concat, if_pos rfl,
      List.dropLast_concat, hlast, if_neg hreturn]
  · have hcut : part ++ (comment ++ [13, 10]) = part ++ comment ++ [13] ++ [10] := by simp
    rw [Line.ending, hcut, List.getLast?_concat, if_pos rfl, List.dropLast_concat,
      List.getLast?_concat, if_pos rfl]
  · rw [Line.ending, List.append_nil, hlast, if_neg hnewline]

/-- A text with a comment that goes has whole lines before the line of the comment and after it. -/
theorem exists_lines (c : Cut rules before) :
    ∃ lines part : Text, c.kept = lines ++ part ∧ lines.EndsLine ∧ part.IsOnLine ∧
      Text.linesFrom before.length c.text =
        Text.linesFrom before.length lines ++
          ⟨(before ++ lines).length, part ++ c.blanks ++ (c.comment ++ c.ending)⟩ ::
            Text.linesFrom c.past.length c.rest := by
  obtain ⟨lines, part, hkept, hlines, hpart⟩ := Text.exists_cut_lastLine c.kept
  have hline : Text.IsOnLine (part ++ c.blanks ++ c.comment) :=
    List.forall_mem_append.mpr ⟨List.forall_mem_append.mpr ⟨hpart, c.isOnLine⟩, c.isOnLine_comment⟩
  have hne : part ++ c.blanks ++ c.comment ≠ [] :=
    fun h ↦ c.comment_ne_nil (List.append_eq_nil_iff.mp h).2
  have htext : c.text = lines ++ (part ++ c.blanks ++ c.comment ++ (c.ending ++ c.rest)) := by
    rw [Cut.text, hkept]
    simp only [List.append_assoc]
  have hpast : c.past.length = before.length + lines.length +
      (part ++ c.blanks ++ c.comment ++ c.ending).length := by
    rw [Cut.past, hkept]
    simp only [List.length_append]
    omega
  have hstart : (before ++ lines).length = before.length + lines.length := List.length_append
  refine ⟨lines, part, hkept, hlines, hpart, ?_⟩
  rw [htext, Text.linesFrom_append _ hlines, Text.linesFrom_ending _ hline hne c.isEnding,
    hpast, hstart]
  simp only [List.append_assoc]

/-- What is kept of the line of a comment, and what is left of it. -/
theorem without_eq (c : Cut rules before) {lines part : Text} (hkept : c.kept = lines ++ part)
    (hlines : lines.EndsLine) (hpart : part.IsOnLine) :
    Line.without rules ⟨(before ++ lines).length, part ++ c.blanks ++ (c.comment ++ c.ending)⟩
      (before ++ (c.kept ++ c.blanks)).length = part ++ c.left := by
  have hindex : (before ++ (c.kept ++ c.blanks)).length - (before ++ lines).length =
      (part ++ c.blanks).length := by
    rw [hkept]
    simp only [List.length_append]
    omega
  have hending := c.ending_line (before ++ lines).length (part ++ c.blanks)
  have hleaves := c.leaves
  rw [Line.without, hindex, List.take_left, hending]
  generalize c.left = left at hleaves ⊢
  cases hleaves with
  | alone h =>
    have hnil : part = [] := by
      by_contra hne
      have hlast := h (part.getLast hne) (by
        rw [hkept, List.getLast?_append, List.getLast?_eq_some_getLast hne, Option.some_or]
        rfl)
      rw [hpart _ (List.getLast_mem hne)] at hlast
      exact Bool.noConfusion hlast
    rw [hnil, List.nil_append, if_pos c.isBlank, List.nil_append]
  | behind h =>
    have hpartLast := Text.exists_getLast?_of_cut hlines (hkept ▸ h)
    have hnotBlank : ¬ Text.isBlank (part ++ c.blanks) = true := by
      intro hblank
      obtain ⟨v, hv, hvnot⟩ := hpartLast
      have := List.all_eq_true.mp hblank v (List.mem_append_left _ (List.mem_of_getLast? hv))
      rw [hvnot] at this
      exact Bool.noConfusion this
    rw [if_neg hnotBlank, Text.trimEnd_append hpartLast c.isBlank]

end Cut

/-- What is left of a course is what is left of the lines, and no line loses more than one
comment. -/
theorem Course.lines {t out : Text} (h : Course rules before t out) :
    out = (Text.linesFrom before.length t).flatMap (Line.remainder rules (starts rules before t)) ∧
      ∀ l ∈ Text.linesFrom before.length t,
      ((starts rules before t).filter l.holds).length ≤ 1 := by
  induction h with
  | @stay before t hstays =>
    have hnone : starts rules before t = [] := by
      rw [starts, List.filter_eq_nil_iff.mpr fun s hs ↦ ne_true_of_eq_false (hstays s hs),
        List.map_nil]
    rw [hnone]
    exact ⟨(Text.flatMap_linesFrom _ t).symm, fun _ _ ↦ Nat.zero_le 1⟩
  | @cut before out c _ ih =>
    obtain ⟨lines, part, hkept, hlines, hpart, hcut⟩ := c.exists_lines
    have hcomment := List.length_pos_iff.mpr c.comment_ne_nil
    have hlater : ∀ i ∈ starts rules c.past c.rest, c.past.length ≤ i := fun i ↦ le_of_mem_starts
    have hpast : c.past.length =
        before.length + lines.length + part.length + c.blanks.length + c.comment.length +
        c.ending.length := by
      rw [Cut.past, hkept]
      simp only [List.length_append]
      omega
    have hstart : (before ++ (c.kept ++ c.blanks)).length =
        before.length + lines.length + part.length + c.blanks.length := by
      rw [hkept]
      simp only [List.length_append]
      omega
    -- the lines before the line of the comment, this line, and the lines after it
    have hearlier : ∀ l ∈ Text.linesFrom before.length lines, ∀ i ∈ starts rules before c.text,
        l.holds i = false := by
      intro l hl i hi
      have hbounds := Text.bounds_of_mem_linesFrom hl
      rw [c.starts_text] at hi
      refine Line.holds_eq_false (.inr ?_)
      rcases List.mem_cons.mp hi with rfl | hi
      · omega
      · have := hlater i hi
        omega
    have hholds : Line.holds ⟨(before ++ lines).length, part ++ c.blanks ++ (c.comment ++ c.ending)⟩
        (before ++ (c.kept ++ c.blanks)).length = true := by
      simp only [Line.holds, hstart, List.length_append, Bool.and_eq_true, decide_eq_true_eq]
      omega
    have hbehind : ∀ i ∈ starts rules c.past c.rest,
        Line.holds ⟨(before ++ lines).length, part ++ c.blanks ++ (c.comment ++ c.ending)⟩ i =
          false := by
      intro i hi
      have := hlater i hi
      refine Line.holds_eq_false (.inr ?_)
      simp only [List.length_append]
      omega
    have hafter : ∀ l ∈ Text.linesFrom c.past.length c.rest,
        l.holds (before ++ (c.kept ++ c.blanks)).length = false := by
      intro l hl
      have hbounds := Text.bounds_of_mem_linesFrom hl
      exact Line.holds_eq_false (.inl (by omega))
    rw [hcut, c.starts_text]
    rw [c.starts_text] at hearlier
    constructor
    · have hfirst := List.flatMap_congr fun l hl ↦ Line.remainder_of_none rules (hearlier l hl)
      have hlast := List.flatMap_congr fun l hl ↦
        Line.remainder_cons_of_not rules (starts rules c.past c.rest) (hafter l hl)
      rw [List.flatMap_append, List.flatMap_cons, hfirst, Text.flatMap_linesFrom,
        Line.remainder_cons_of_holds _ _ hholds, c.without_eq hkept hlines hpart, hlast,
        ← ih.1, hkept]
      simp only [List.append_assoc]
    · intro l hl
      rcases List.mem_append.mp hl with hl | hl
      · rw [List.filter_eq_nil_iff.mpr fun i hi ↦ ne_true_of_eq_false (hearlier l hl i hi)]
        exact Nat.zero_le 1
      rcases List.mem_cons.mp hl with rfl | hl
      · rw [List.filter_cons_of_pos hholds,
          List.filter_eq_nil_iff.mpr fun i hi ↦ ne_true_of_eq_false (hbehind i hi)]
        exact le_rfl
      · rw [List.filter_cons_of_neg (ne_true_of_eq_false (hafter l hl))]
        exact ih.2 l hl

/-- With blank lines to stay, a course leaves as many line feeds as there were. -/
theorem Course.lineFeeds_eq {t out : Text} (h : Course rules before t out)
    (hpreserve : rules.preserveBlankLines = true) : out.lineFeeds = t.lineFeeds := by
  induction h with
  | stay => rfl
  | @cut before out c _ ih =>
    have hleft : c.left = c.ending := by
      have hleaves := c.leaves
      generalize c.left = left at hleaves
      cases hleaves with
      | alone => rw [if_pos hpreserve]
      | behind => rfl
    simp only [Cut.text, hleft, Text.lineFeeds_append, ih, c.isOnLine.lineFeeds_eq_zero,
      c.isOnLine_comment.lineFeeds_eq_zero, Nat.zero_add]

/-- The offsets at which the removed passages of a text start. -/
theorem map_start_removed (source : Text) (rules : CommentRules) :
    (removed source rules).map (·.span.start) = starts rules [] source := by
  have hgoes := source.forall₂_marks_filter rules id
  rw [starts, ← List.forall₂_eq_eq_eq, List.forall₂_map_left_iff, List.forall₂_map_right_iff]
  exact hgoes.flip.imp fun p s h ↦ by rw [h.span_eq]; rfl

end Strip

/-- Taking comments out of a text succeeds, and works line by line. The comments that go are those
that are neither a directive that is kept nor kept by their text. At most one of them starts on a
line; from such a line the comment goes with the blanks before it, and a line with nothing else goes
as a whole, or but for its ending if blank lines are to stay. All other lines are as they were. If
blank lines are to stay, so does the number of line feeds. -/
theorem Text.strip_linewise (source : Text) (rules : CommentRules) :
    ∃ stripped removed, source.strip rules = .ok (stripped, removed) ∧
      removed = source.passages.filter (fun p ↦ p.kind = .comment ∧
        ¬ (rules.preserveDirectives = true ∧ Strip.isFileDirective source p.span = true) ∧
        ¬ rules.keeps (p.span.read source) = true) ∧
      (∀ l ∈ source.physicalLines, (removed.filter fun p ↦ l.holds p.span.start).length ≤ 1) ∧
      stripped = source.physicalLines.flatMap (Line.remainder rules (removed.map (·.span.start))) ∧
      (rules.preserveBlankLines = true → stripped.lineFeeds = source.lineFeeds) := by
  obtain ⟨stripped, hcourse, hstrip⟩ := source.exists_strip rules
  obtain ⟨hlines, hunique⟩ := hcourse.lines
  refine ⟨stripped, Strip.removed source rules, hstrip, ?_, fun l hl ↦ ?_, ?_, hcourse.lineFeeds_eq⟩
  · refine List.filter_congr fun p _ ↦ ?_
    rw [Strip.isRemoved, Bool.eq_iff_iff]
    simp [and_assoc]
  · have hone := hunique l hl
    rw [← Strip.map_start_removed, List.filter_map, List.length_map] at hone
    exact hone
  · rw [Strip.map_start_removed]
    exact hlines

end Declutter
