import Declutter.Proofs.Comment.Course
import Declutter.Proofs.Edit
import Mathlib.Data.List.Forall2
/-!
What is left of a text without its comments. The edits of the comments that go follow each other,
and carrying them out gives the text that the course through the text leaves
(`Strip.Course.weave_edits`). What the scan sees in that text is what stays of what it sees in the
source, and the text before each sighting trails the text before it in the source
(`Strip.Course.forall₂_becomes`).
-/

set_option autoImplicit false
set_option relaxedAutoImplicit false

namespace Declutter

namespace Strip

open Lexeme

variable {rules : CommentRules} {before : Text}

/-! ### The edits -/

/-- The edits of the comments that go in a text after `before`. -/
def edits (rules : CommentRules) (source before t : Text) : List Edit :=
  ((sightings before (split t)).filter (·.isRemoved rules)).map fun s ↦
    removal source rules.preserveBlankLines s.span

/-- The edit of a comment takes the blanks before it along, and the ending of its line if that is
not left. -/
theorem Cut.exists_gone (c : Cut rules before) :
    ∃ gone : Text, gone ≠ [] ∧ c.past = before ++ c.kept ++ gone ++ c.left ∧
      removal (before ++ c.text) rules.preserveBlankLines c.sighting.span =
        .deletion (before ++ c.kept).length (before ++ c.kept ++ gone).length := by
  have htext : before ++ c.text = before ++ c.kept ++
      (c.blanks ++ (c.comment ++ (c.ending ++ c.rest))) := by
    rw [Cut.text, List.append_assoc]
  have hspan : c.sighting.span = ⟨(before ++ c.kept).length + c.blanks.length,
      (before ++ c.kept).length + c.blanks.length + c.comment.length⟩ := by
    rw [Sighting.span, Cut.sighting, ← List.append_assoc, List.length_append]
  have hne : ∀ t : Text, c.blanks ++ c.comment ++ t ≠ [] := fun t ht ↦
    c.comment_ne_nil (List.append_eq_nil_iff.mp (List.append_eq_nil_iff.mp ht).1).2
  have hleaves := c.leaves
  generalize c.left = left at hleaves
  rw [htext, hspan, Cut.past]
  cases hleaves with
  | alone hkept =>
    rw [removal_alone c.comment c.rest rules.preserveBlankLines (c.endsLine.append hkept)
      c.isOnLine c.isBlank c.isEnding]
    split_ifs
    · refine ⟨c.blanks ++ c.comment ++ [], hne [], ?_, ?_⟩ <;> simp [Nat.add_assoc]
    · refine ⟨c.blanks ++ c.comment ++ c.ending, hne c.ending, ?_, ?_⟩ <;> simp [Nat.add_assoc]
  | behind hkept =>
    obtain ⟨u, hlast, hnot⟩ := hkept
    have hcode : (before ++ c.kept).getLast? = some u := by
      rw [List.getLast?_append, hlast, Option.some_or]
    rw [removal_behind _ _ _ ⟨u, hcode, hnot⟩ c.isOnLine c.isBlank]
    refine ⟨c.blanks ++ c.comment ++ [], hne [], ?_, ?_⟩ <;> simp [Nat.add_assoc]

/-- No comment goes before the first one that does. -/
theorem Cut.filter_sightings (c : Cut rules before) :
    (sightings before (split c.text)).filter (·.isRemoved rules) =
      c.sighting :: (sightings c.past (split c.rest)).filter (·.isRemoved rules) := by
  have hnone : (sightings before c.lexemes).filter (·.isRemoved rules) = [] :=
    List.filter_eq_nil_iff.mpr fun s hs ↦ ne_true_of_eq_false (c.stays s hs)
  rw [c.sightings_split, List.filter_append, hnone, List.nil_append]
  exact List.filter_cons_of_pos c.isRemoved

/-- Of what is seen in the text with the first comment that goes, only this comment is missing
before the rest. -/
theorem Cut.filter_not_sightings (c : Cut rules before) :
    (sightings before (split c.text)).filter (!·.isRemoved rules) =
      sightings before c.lexemes ++ (sightings c.past (split c.rest)).filter
        (!·.isRemoved rules) := by
  have hall : (sightings before c.lexemes).filter (!·.isRemoved rules) =
      sightings before c.lexemes :=
    List.filter_eq_self.mpr fun s hs ↦ by rw [c.stays s hs, Bool.not_false]
  have hgoes : ¬ (!c.sighting.isRemoved rules) = true := by
    rw [show c.sighting.isRemoved rules = true from c.isRemoved]
    exact Bool.noConfusion
  rw [c.sightings_split, List.filter_append, hall]
  exact congrArg _ (List.filter_cons_of_neg hgoes)

theorem Cut.edits_text (c : Cut rules before) (source : Text) :
    edits rules source before c.text =
      removal source rules.preserveBlankLines c.sighting.span ::
      edits rules source c.past c.rest := by
  rw [edits, c.filter_sightings, List.map_cons, edits]

/-- The edits of a course follow each other, and what they leave is the text that is left of the
course. -/
theorem Course.weave_edits {t out source : Text} (h : Course rules before t out)
    (hsource : source = before ++ t) :
    (∀ e ∈ edits rules source before t, (before.length : Int) ≤ e.start ∧ e.Fits source.length) ∧
      (edits rules source before t).Pairwise (fun a b ↦ a.stop ≤ b.start) ∧
      Edit.weave source before.length (edits rules source before t) = out := by
  induction h with
  | @stay before t hstays =>
    have hnone : edits rules source before t = [] := by
      rw [edits, List.filter_eq_nil_iff.mpr fun s hs ↦ ne_true_of_eq_false (hstays s hs),
        List.map_nil]
    rw [hnone, hsource]
    exact ⟨by simp, .nil, List.drop_left⟩
  | @cut before out c _ ih =>
    obtain ⟨gone, hne, hpast, hremoval⟩ := c.exists_gone
    have hsource' : source = c.past ++ c.rest := by
      rw [hsource, Cut.text, Cut.past]
      simp only [List.append_assoc]
    obtain ⟨hinside, hordered, hweave⟩ := ih hsource'
    -- the text is cut into what is kept, what goes, what is left of the line, and the rest
    have hcuts : source = before ++ (c.kept ++ (gone ++ (c.left ++ c.rest))) := by
      rw [hsource', hpast]
      simp only [List.append_assoc]
    have hpos := List.length_pos_iff.mpr hne
    have hlength := congrArg List.length hcuts
    have hpastLength := congrArg List.length hpast
    simp only [List.length_append] at hlength hpastLength hremoval
    rw [c.edits_text, hsource, hremoval, ← hsource]
    refine ⟨List.forall_mem_cons.mpr ⟨?_, fun e he ↦ ⟨?_, (hinside e he).2⟩⟩,
      List.pairwise_cons.mpr ⟨fun e he ↦ ?_, hordered⟩, ?_⟩
    · exact ⟨by simp only [Edit.deletion]; omega, by simp only [Edit.deletion]; omega,
        by simp only [Edit.deletion]; omega, by simp only [Edit.deletion]; omega⟩
    · have := (hinside e he).1
      omega
    · have := (hinside e he).1
      simp only [Edit.deletion]
      omega
    · have hkept := Text.slice_append before c.kept (gone ++ (c.left ++ c.rest))
      have hleft := Text.slice_append (before ++ c.kept ++ gone) c.left c.rest
      simp only [List.append_assoc, List.length_append, ← hcuts, ← Nat.add_assoc] at hkept hleft
      have hrest :=
        Edit.weave_of_le (t := source) (i := before.length + c.kept.length + gone.length) (by omega)
          (fun e he ↦ (hinside e he).1) (by omega)
      rw [hpastLength, hleft, ← hpastLength, hweave] at hrest
      rw [Edit.weave, Edit.deletion, Int.toNat_natCast, Int.toNat_natCast, hkept, hrest,
        List.append_nil]

/-! ### What is seen in the text that is left -/

/-- What stands before a line of a text and before the same line of the text that is left of it: no
more line feeds, and nothing if nothing stood there. -/
structure Trails (before before' : Text) : Prop where
  endsLine : before.EndsLine
  endsLine' : before'.EndsLine
  nil : before = [] → before' = []
  lineFeeds : before'.lineFeeds ≤ before.lineFeeds

/-- The sighting is left as the other one: the lexeme is the same, and so is the text before it from
the start of some line on. -/
def Becomes (s s' : Sighting) : Prop :=
  s'.lexeme = s.lexeme ∧
    ∃ lines lines' part, Trails lines lines' ∧ s.before = lines ++ part ∧ s'.before = lines' ++ part

theorem Becomes.lineFeeds_le {s s' : Sighting} (h : Becomes s s') :
    s'.before.lineFeeds ≤ s.before.lineFeeds := by
  obtain ⟨-, lines, lines', part, htrails, hs, hs'⟩ := h
  rw [hs, hs', Text.lineFeeds_append, Text.lineFeeds_append]
  exact Nat.add_le_add_right htrails.lineFeeds _

theorem Becomes.before_eq_nil {s s' : Sighting} (h : Becomes s s') (hnil : s.before = []) :
    s'.before = [] := by
  obtain ⟨-, lines, lines', part, htrails, hs, hs'⟩ := h
  obtain ⟨hlines, rfl⟩ := List.append_eq_nil_iff.mp (hs.symm.trans hnil)
  rw [hs', htrails.nil hlines, List.append_nil]

theorem Becomes.isDirective {s s' : Sighting} (h : Becomes s s')
    (hdirective : s.isDirective = true) :
    s'.isDirective = true := by
  have hfeeds := h.lineFeeds_le
  have hnil := h.before_eq_nil
  obtain ⟨hlexeme, lines, lines', part, htrails, hs, hs'⟩ := h
  have hlast : s'.before.lastLine = s.before.lastLine := by
    rw [hs, hs', Text.lastLine_append htrails.endsLine, Text.lastLine_append htrails.endsLine']
  rw [Sighting.isDirective, Bool.or_eq_true, Bool.and_eq_true, Bool.and_eq_true, List.isEmpty_iff,
    decide_eq_true_eq] at hdirective ⊢
  rw [hlexeme, hlast]
  exact hdirective.imp (And.imp_left hnil) (And.imp_left hfeeds.trans)

/-- What stays in a text goes out of what is left of it no more. -/
theorem Becomes.isRemoved {s s' : Sighting} (h : Becomes s s')
    (hstays : s.isRemoved rules = false) :
    s'.isRemoved rules = false := by
  have hdirective := h.isDirective
  rw [Sighting.isRemoved] at hstays ⊢
  rw [h.1]
  cases hs : s.isDirective with
  | true =>
    rw [hs] at hstays
    rwa [hdirective hs]
  | false =>
    rw [hs, Bool.and_false, Bool.not_false, Bool.and_true] at hstays
    rw [Bool.and_right_comm, hstays, Bool.false_and]

theorem forall₂_becomes {lines lines' : Text} (h : Trails lines lines') (part : Text)
    (xs : List Lexeme) :
    List.Forall₂ Becomes (sightings (lines ++ part) xs) (sightings (lines' ++ part) xs) := by
  induction xs generalizing part with
  | nil => exact .nil
  | cons x xs ih =>
    have hlater := ih (part ++ x.text)
    rw [← List.append_assoc, ← List.append_assoc] at hlater
    rw [sightings, sightings]
    split_ifs
    · exact .cons ⟨rfl, lines, lines', part, h, rfl, rfl⟩ hlater
    · exact hlater

/-- The line after a cut trails the line after what is left. -/
theorem Cut.trails (c : Cut rules before) {before' : Text} (h : Trails before before') :
    c.rest = [] ∨ Trails c.past (before' ++ (c.kept ++ c.left)) := by
  have hends' : Text.EndsLine (before' ++ (c.kept ++ c.left)) ∨ c.rest = [] := by
    rcases c.leaves.eq_or_eq_nil with hleft | ⟨hleft, hkept⟩
    · rw [hleft, ← List.append_assoc]
      exact endsLine_append c.isEnding _
    · rw [hleft, List.append_nil]
      exact .inl (h.endsLine'.append hkept)
  have hleft : c.left.lineFeeds ≤ c.ending.lineFeeds := by
    rcases c.leaves.eq_or_eq_nil with hleft | ⟨hleft, -⟩
    · rw [hleft]
    · rw [hleft]
      exact Nat.zero_le _
  rcases c.endsLine_past with hends | hrest
  · refine hends'.symm.imp_right fun hends' ↦ ⟨hends, hends', fun hnil ↦ ?_, ?_⟩
    · simp only [Cut.past, List.append_eq_nil_iff] at hnil
      exact absurd hnil.2.2.2.1 c.comment_ne_nil
    · have hfeeds := h.lineFeeds
      simp only [Cut.past, Text.lineFeeds_append]
      omega
  · exact .inl hrest

/-- What is seen in the text that is left of a course is what stays of what is seen in the text. -/
theorem Course.forall₂_becomes {t out : Text} (h : Course rules before t out) (before' : Text)
    (htrails : t = [] ∨ Trails before before') :
    List.Forall₂ Becomes ((sightings before (split t)).filter (!·.isRemoved rules))
      (sightings before' (split out)) := by
  induction h generalizing before' with
  | @stay before t hstays =>
    have hall : (sightings before (split t)).filter (!·.isRemoved rules) =
        sightings before (split t) :=
      List.filter_eq_self.mpr fun s hs ↦ by rw [hstays s hs, Bool.not_false]
    rw [hall]
    rcases htrails with rfl | htrails
    · rw [split]
      exact .nil
    · have hbecomes := Strip.forall₂_becomes htrails [] (split t)
      rwa [List.append_nil, List.append_nil] at hbecomes
  | @cut before out c hcourse ih =>
    have htrails' := htrails.resolve_left c.text_ne_nil
    have hearlier := Strip.forall₂_becomes htrails' [] c.lexemes
    rw [List.append_nil, List.append_nil] at hearlier
    rw [c.filter_not_sightings, c.sightings_split_left hcourse.eq_nil]
    exact List.rel_append hearlier (ih _ (c.trails htrails'))

end Strip

end Declutter
