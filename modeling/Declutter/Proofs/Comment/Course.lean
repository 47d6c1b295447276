import Declutter.Proofs.Comment.Standing
import Declutter.Proofs.Removal
/-!
How the comments go out of a text, one after the other. A `Strip.Cut` is the first comment that
goes, with the text around it and what is left of its line; a `Strip.Course` leads through a text
from one such comment to the next. Every text has a course (`Strip.exists_course`). In what a cut
leaves, the scan sees what it saw before the comment and then what it sees behind it
(`Strip.Cut.sightings_split_left`), although the text before the comment now meets the next line.
-/

set_option autoImplicit false
set_option relaxedAutoImplicit false

namespace Declutter

open scoped List

namespace Strip

open Lexeme

/-! ### The edit of a comment -/

section Removal

variable {blanks : Text}

/-- The edit of a comment behind code begins with the blanks between them. -/
theorem removal_behind {code : Text} (rest : Text) (preserveBlankLines : Bool) (stop : Nat)
    (hcode : ∃ u, code.getLast? = some u ∧ u.isBlank = false) (hline : blanks.IsOnLine)
    (hblank : blanks.isBlank = true) :
    removal (code ++ (blanks ++ rest)) preserveBlankLines ⟨code.length + blanks.length, stop⟩ =
      .deletion code.length stop := by
  obtain ⟨lines, part, rfl, hlines, hpart⟩ := Text.exists_cut_lastLine code
  obtain ⟨u, hlast, hnot⟩ := Text.exists_getLast?_of_cut hlines hcode
  have honLine : Text.IsOnLine (part ++ blanks) := List.forall_mem_append.mpr ⟨hpart, hline⟩
  have hstart := Text.lineStart_append rest hlines honLine
  have hslice := Text.slice_append lines (part ++ blanks) rest
  have hnotBlank : Text.isBlank (part ++ blanks) = false :=
    List.all_eq_false.mpr
      ⟨u, List.mem_append_left _ (List.mem_of_getLast? hlast), ne_true_of_eq_false hnot⟩
  simp only [List.append_assoc, List.length_append, ← Nat.add_assoc] at hstart hslice ⊢
  simp only [removal, hstart, hslice, hnotBlank, Bool.false_eq_true, if_false,
    Text.trimEnd_append ⟨u, hlast, hnot⟩ hblank]

end Removal

/-! ### One comment -/

/-- What is left behind the text that is kept before a comment: the ending of a line with something
else on it; of a line that was the comment's, the ending only if blank lines are to stay. -/
inductive Leaves (rules : CommentRules) (kept ending : Text) : Text → Prop
  | alone (h : kept.EndsLine) :
      Leaves rules kept ending (if rules.preserveBlankLines then ending else [])
  | behind (h : ∃ u, kept.getLast? = some u ∧ u.isBlank = false) : Leaves rules kept ending ending

/-- The first comment that goes in a text after `before`: what is kept of the text before the
comment, the blanks that go with it, the comment, the ending of its line and the text after that. -/
structure Cut (rules : CommentRules) (before : Text) where
  lexemes : List Lexeme
  kept : Text
  blanks : Text
  comment : Text
  ending : Text
  left : Text
  rest : Text
  endsLine : before.EndsLine
  isScan : IsScan lexemes (comment ++ (ending ++ rest))
  textOf_eq : textOf lexemes = kept ++ blanks
  stays : ∀ s ∈ sightings before lexemes, s.isRemoved rules = false
  isBlank : blanks.isBlank = true
  isOnLine : blanks.IsOnLine
  isFirst : IsFirst ⟨.comment, comment⟩ (ending ++ rest)
  isRemoved : Sighting.isRemoved rules ⟨before ++ (kept ++ blanks), ⟨.comment, comment⟩⟩ = true
  isEnding : ending.IsEnding rest
  leaves : Leaves rules kept ending left

variable {rules : CommentRules} {before : Text}

/-- The text with the comment. -/
def Cut.text (c : Cut rules before) : Text :=
  c.kept ++ (c.blanks ++ (c.comment ++ (c.ending ++ c.rest)))

/-- The comment with the text before it. -/
def Cut.sighting (c : Cut rules before) : Sighting :=
  ⟨before ++ (c.kept ++ c.blanks), ⟨.comment, c.comment⟩⟩

/-- The text up to the rest behind the line of the comment. -/
def Cut.past (c : Cut rules before) : Text :=
  before ++ (c.kept ++ (c.blanks ++ (c.comment ++ c.ending)))

/-- The way through a text after `before`, from one comment that goes to the next, with the text
that is left. -/
inductive Course (rules : CommentRules) : Text → Text → Text → Prop
  | stay {before t : Text} (h : ∀ s ∈ sightings before (split t), s.isRemoved rules = false) :
      Course rules before t t
  | cut {before out : Text} (c : Cut rules before) (h : Course rules c.past c.rest out) :
      Course rules before c.text (c.kept ++ (c.left ++ out))

theorem Cut.head?_comment (c : Cut rules before) :
    c.comment.head? = some (CodeUnit.ofChar '#') := by
  have hfirst := c.isFirst
  generalize c.comment = comment at hfirst
  cases hfirst
  rfl

theorem Cut.comment_ne_nil (c : Cut rules before) : c.comment ≠ [] := fun hnil ↦ by
  have hhead := c.head?_comment
  rw [hnil] at hhead
  exact nomatch hhead

theorem Cut.text_ne_nil (c : Cut rules before) : c.text ≠ [] := fun hnil ↦ by
  simp only [Cut.text, List.append_eq_nil_iff] at hnil
  exact c.comment_ne_nil hnil.2.2.1

/-- What is seen in the text around a comment that goes. -/
theorem Cut.sightings_split (c : Cut rules before) :
    sightings before (split c.text) =
      sightings before c.lexemes ++ c.sighting :: sightings c.past (split c.rest) := by
  have hcomment := c.isFirst.split_eq
  rw [Cut.text, Cut.past, ← List.append_assoc, ← c.textOf_eq, c.isScan.split_eq, hcomment,
    sightings_append, sightings, sightings_split_ending c.isEnding, c.textOf_eq]
  simp only [List.append_assoc]
  rfl

theorem Leaves.isSeam {kept ending left rest : Text} (h : Leaves rules kept ending left)
    (hending : ending.IsEnding rest) : kept.IsSeam (left ++ rest) := by
  cases h with
  | alone h => exact .inl h
  | behind h =>
    refine .inr ⟨h, ?_⟩
    rcases hending with rfl | rfl | ⟨rfl, rfl⟩
    · exact .inr rfl
    · exact .inr rfl
    · exact .inl rfl

/-- The ending of a line is left, or a line ends before it anyway. -/
theorem Leaves.eq_or_eq_nil {kept ending left : Text} (h : Leaves rules kept ending left) :
    left = ending ∨ left = [] ∧ kept.EndsLine := by
  cases h with
  | alone h =>
    split_ifs
    · exact .inl rfl
    · exact .inr ⟨rfl, h⟩
  | behind => exact .inl rfl

/-- Nothing is left of no text. -/
theorem Course.eq_nil {t out : Text} (h : Course rules before t out) (ht : t = []) : out = [] := by
  cases h with
  | stay => exact ht
  | cut c => exact absurd ht c.text_ne_nil

theorem Leaves.sublist {kept ending left : Text} (h : Leaves rules kept ending left) :
    left <+ ending := by
  rcases h.eq_or_eq_nil with hleft | ⟨hleft, -⟩
  · exact hleft ▸ .refl _
  · exact hleft ▸ List.nil_sublist _

/-- A course only takes units away. -/
theorem Course.sublist {t out : Text} (h : Course rules before t out) : out <+ t := by
  induction h with
  | stay => exact .refl _
  | cut c _ ih =>
    have hending := c.leaves.sublist.append ih
    have hcomment := hending.trans (List.sublist_append_right c.comment _)
    exact (List.Sublist.refl c.kept).append (hcomment.trans (List.sublist_append_right c.blanks _))

/-- If a comment goes, its units are missing. -/
theorem Course.length_lt {t out : Text} (h : Course rules before t out)
    (hgoes : ∃ s ∈ sightings before (split t), s.isRemoved rules = true) :
    out.length < t.length := by
  cases h with
  | stay hstays =>
    obtain ⟨s, hs, hremoved⟩ := hgoes
    exact Bool.noConfusion ((hstays s hs).symm.trans hremoved)
  | cut c hrest =>
    have hleft := (c.leaves.sublist.append hrest.sublist).length_le
    have hcomment := List.length_pos_iff.mpr c.comment_ne_nil
    simp only [Cut.text, List.length_append] at hleft ⊢
    omega

/-- What is seen in the text that is left of a cut, after any text. -/
theorem Cut.sightings_split_left (c : Cut rules before) {out : Text} (hout : c.rest = [] → out = [])
    (before' : Text) :
    sightings before' (split (c.kept ++ (c.left ++ out))) =
      sightings before' c.lexemes ++ sightings (before' ++ (c.kept ++ c.left)) (split out) := by
  have hending : c.ending.IsEnding out :=
    c.isEnding.imp_right (Or.imp_right fun h ↦ ⟨h.1, hout h.2⟩)
  have hleft : sightings (before' ++ c.kept) (split (c.left ++ out)) =
      sightings (before' ++ c.kept ++ c.left) (split out) := by
    rcases c.leaves.eq_or_eq_nil with hleft | ⟨hleft, -⟩
    · rw [hleft, sightings_split_ending hending]
    · rw [hleft, List.nil_append, List.append_nil]
  have hhead : (c.comment ++ (c.ending ++ c.rest)).head? = some (CodeUnit.ofChar '#') := by
    rw [List.head?_append, c.head?_comment, Option.some_or]
  rw [c.isScan.sightings_split hhead c.textOf_eq c.isBlank c.isOnLine (c.leaves.isSeam hending),
    hleft, List.append_assoc]

/-! ### Every text has a course -/

/-- The first comment that goes among lexemes. -/
theorem exists_first_isRemoved {xs : List Lexeme}
    (h : ∃ s ∈ sightings before xs, s.isRemoved rules = true) :
    ∃ earlier x later, xs = earlier ++ x :: later ∧
    (∀ s ∈ sightings before earlier, s.isRemoved rules = false) ∧
      Sighting.isRemoved rules ⟨before ++ textOf earlier, x⟩ = true := by
  induction xs generalizing before with
  | nil => exact absurd h (by simp)
  | cons x xs ih =>
    by_cases hx : x.isPassage = true ∧ Sighting.isRemoved rules ⟨before, x⟩ = true
    · exact ⟨[], x, xs, rfl, by simp, by simpa using hx.2⟩
    · have hlater : ∃ s ∈ sightings (before ++ x.text) xs, s.isRemoved rules = true := by
        obtain ⟨s, hs, hremoved⟩ := h
        rw [sightings] at hs
        split_ifs at hs with hpassage
        · refine ⟨s, (List.mem_cons.mp hs).resolve_left ?_, hremoved⟩
          rintro rfl
          exact hx ⟨hpassage, hremoved⟩
        · exact ⟨s, hs, hremoved⟩
      obtain ⟨earlier, y, later, rfl, hstays, hremoved⟩ := ih hlater
      refine ⟨x :: earlier, y, later, rfl, ?_, ?_⟩
      · intro s hs
        rw [sightings] at hs
        split_ifs at hs with hpassage
        · rcases List.mem_cons.mp hs with rfl | hs
          · exact eq_false_of_ne_true fun hremoved ↦ hx ⟨hpassage, hremoved⟩
          · exact hstays s hs
        · exact hstays s hs
      · rwa [textOf_cons, ← List.append_assoc]

theorem exists_ending {body rest : Text} (h : StopsComment body rest) :
    ∃ ending after : Text, rest = ending ++ after ∧ ending.IsEnding after := by
  rcases h with rfl | ⟨hhead, -⟩ | ⟨s, rfl⟩
  · exact ⟨[], [], rfl, .inr (.inr ⟨rfl, rfl⟩)⟩
  · obtain ⟨s, rfl⟩ := List.head?_eq_some_iff.mp hhead
    exact ⟨[10], s, rfl, .inl rfl⟩
  · exact ⟨[13, 10], s, rfl, .inr (.inl rfl)⟩

/-- What is kept of the text before a comment, and what of the line of the comment is left. -/
theorem exists_leaves (rules : CommentRules) (t ending : Text) :
    ∃ kept blanks left : Text, t = kept ++ blanks ∧ blanks.isBlank = true ∧ blanks.IsOnLine ∧
      Leaves rules kept ending left := by
  obtain ⟨lines, part, rfl, hlines, hpart⟩ := Text.exists_cut_lastLine t
  by_cases hblank : part.isBlank = true
  · exact ⟨lines, part, _, rfl, hblank, hpart, .alone hlines⟩
  · obtain ⟨code, blanks, rfl, ⟨u, hlast, hnot⟩, hblanks⟩ := Text.exists_trimEnd hblank
    have hkept : (lines ++ code).getLast? = some u := by
      rw [List.getLast?_append, hlast, Option.some_or]
    exact ⟨lines ++ code, blanks, _, (List.append_assoc _ _ _).symm, hblanks,
      (List.forall_mem_append.mp hpart).2, .behind ⟨u, hkept, hnot⟩⟩

/-- A text in which a comment goes is cut at the first one. -/
theorem exists_cut {t : Text} (hbefore : before.EndsLine)
    (h : ∃ s ∈ sightings before (split t), s.isRemoved rules = true) :
    ∃ c : Cut rules before, t = c.text := by
  obtain ⟨earlier, ⟨kind, comment⟩, later, hsplit, hstays, hremoved⟩ := exists_first_isRemoved h
  obtain ⟨htext, hscan⟩ := isScan_split t
  rw [hsplit] at htext hscan
  obtain ⟨hearlier, hfirst, -⟩ := isScan_append.mp hscan
  simp only [textOf_cons, List.append_nil] at hearlier hfirst
  have hkind : kind = .comment := by
    rw [Sighting.isRemoved, Bool.and_eq_true, Bool.and_eq_true, beq_iff_eq] at hremoved
    exact hremoved.1.1
  subst hkind
  obtain ⟨ending, rest, hrest, hending⟩ : ∃ ending rest : Text,
      textOf later = ending ++ rest ∧ ending.IsEnding rest := by
    cases hfirst with
    | comment line stop => exact exists_ending stop
  obtain ⟨kept, blanks, left, hkept, hblank, hline, hleaves⟩ :=
    exists_leaves rules (textOf earlier) ending
  rw [textOf_append, textOf_cons, hkept, hrest, List.append_assoc] at htext
  rw [hrest] at hearlier hfirst
  rw [hkept] at hremoved
  exact ⟨⟨earlier, kept, blanks, comment, ending, left, rest, hbefore, hearlier, hkept, hstays,
    hblank, hline, hfirst, hremoved, hending, hleaves⟩, htext.symm⟩

/-- Behind the ending of a line the next line starts, or nothing comes after it. -/
theorem endsLine_append {ending rest : Text} (h : ending.IsEnding rest) (t : Text) :
    Text.EndsLine (t ++ ending) ∨ rest = [] := by
  have hconcat : ∀ t : Text, Text.EndsLine (t ++ [10]) := fun t u hu ↦ by
    rw [List.getLast?_concat] at hu
    obtain rfl := Option.some.inj hu
    rfl
  rcases h with rfl | rfl | ⟨-, hrest⟩
  · exact .inl (hconcat t)
  · have hends := hconcat (t ++ [13])
    rw [List.append_assoc] at hends
    exact .inl hends
  · exact .inr hrest

theorem Cut.endsLine_past (c : Cut rules before) : c.past.EndsLine ∨ c.rest = [] := by
  have hends := endsLine_append c.isEnding (before ++ (c.kept ++ (c.blanks ++ c.comment)))
  simp only [List.append_assoc] at hends
  exact hends

theorem Cut.length_rest_lt (c : Cut rules before) : c.rest.length < c.text.length := by
  have hpos := List.length_pos_iff.mpr c.comment_ne_nil
  simp only [Cut.text, List.length_append]
  omega

/-- Every text has a course, from the start of a line on. -/
theorem exists_course (rules : CommentRules) (before t : Text)
    (hbefore : before.EndsLine ∨ t = []) :
    ∃ out, Course rules before t out := by
  induction hlength : t.length using Nat.strong_induction_on generalizing before t with
  | _ n ih =>
    by_cases hstays : ∀ s ∈ sightings before (split t), s.isRemoved rules = false
    · exact ⟨t, .stay hstays⟩
    · simp only [not_forall, Bool.not_eq_false, exists_prop] at hstays
      have hne : t ≠ [] := by
        rintro rfl
        obtain ⟨s, hs, -⟩ := hstays
        rw [split, sightings_nil] at hs
        exact absurd hs List.not_mem_nil
      obtain ⟨c, rfl⟩ := exists_cut (hbefore.resolve_right hne) hstays
      obtain ⟨out, hout⟩ := ih _ (hlength ▸ c.length_rest_lt) _ _ c.endsLine_past rfl
      exact ⟨_, .cut c hout⟩

end Strip

end Declutter
