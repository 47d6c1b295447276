import Declutter.Proofs.Comment.Locality
/-!
The comments and literals of a text, each with the text before it. What the scan of a text sees does
not change when blanks are cut out of the text up to the end of a line, or up to a comment whose
line they begin: it sees what it saw before the cut, and then what it sees in the text after it
(`Lexeme.IsScan.sightings_split`). The lexemes themselves may change there: a word that ends in
blanks gets shorter, and a stray backslash continues its line.
-/

set_option autoImplicit false
set_option relaxedAutoImplicit false

namespace Declutter

/-- A comment or a literal, with the text before it. -/
structure Sighting where
  before : Text
  lexeme : Lexeme
deriving DecidableEq, Repr

namespace Lexeme

/-- Whether the lexeme is a comment or a literal. -/
def isPassage (x : Lexeme) : Bool := x.kind == .comment || x.kind == .literal

/-- The comments and literals among lexemes that come after a text. -/
def sightings (before : Text) : List Lexeme → List Sighting
  | [] => []
  | x :: xs =>
    if x.isPassage then ⟨before, x⟩ :: sightings (before ++ x.text) xs
    else sightings (before ++ x.text) xs

variable {x : Lexeme} {xs : List Lexeme} {before rest : Text}

@[simp] theorem sightings_nil (before : Text) : sightings before [] = [] := rfl

theorem sightings_cons_of_not (before : Text) (xs : List Lexeme) (h : x.isPassage = false) :
    sightings before (x :: xs) = sightings (before ++ x.text) xs := by
  rw [sightings, h]
  rfl

theorem sightings_append (before : Text) (xs ys : List Lexeme) :
    sightings before (xs ++ ys) = sightings before xs ++ sightings (before ++ textOf xs) ys := by
  induction xs generalizing before with
  | nil => rw [textOf_nil, List.append_nil, List.nil_append, sightings_nil, List.nil_append]
  | cons x xs ih =>
    rw [List.cons_append, sightings, sightings, ih, textOf_cons, List.append_assoc]
    split_ifs
    · rw [List.cons_append]
    · rfl

/-! ### Blanks -/

/-- A comment starts with its number sign and a literal holds its quote. -/
theorem IsFirst.not_isPassage_of_isBlank (h : x.IsFirst rest) (hblank : x.text.isBlank = true) :
    x.isPassage = false := by
  rw [Text.isBlank, List.all_eq_true] at hblank
  cases h with
  | comment => exact Bool.noConfusion (hblank _ List.mem_cons_self)
  | @literal _ _ _ quote hquote =>
    have hquoteBlank := hblank quote (List.mem_append_right _ List.mem_cons_self)
    rw [isQuote, Bool.or_eq_true, beq_iff_eq, beq_iff_eq] at hquote
    rcases hquote with rfl | rfl <;> exact Bool.noConfusion hquoteBlank
  | continuation => rfl
  | newline => rfl
  | word => rfl
  | blank => rfl
  | symbol => rfl

theorem IsScan.sightings_of_isBlank (h : IsScan xs rest) (hblank : (textOf xs).isBlank = true)
    (before : Text) :
    sightings before xs = [] := by
  induction xs generalizing before with
  | nil => rfl
  | cons x xs ih =>
    rw [textOf_cons, Text.isBlank, List.all_append, Bool.and_eq_true] at hblank
    rw [sightings_cons_of_not before xs (h.1.not_isPassage_of_isBlank hblank.1), ih h.2 hblank.2]

/-! ### Ends of lines -/

/-- Nothing is seen in what ends a line. -/
theorem sightings_split_ending {ending : Text} (hending : ending.IsEnding rest) (before : Text) :
    sightings before (split (ending ++ rest)) = sightings (before ++ ending) (split rest) := by
  rcases hending with rfl | rfl | ⟨rfl, rfl⟩
  · have hsplit := (IsFirst.newline rest).split_eq
    exact (congrArg _ hsplit).trans (sightings_cons_of_not _ _ rfl)
  · have hscan : IsScan [⟨.blank, [13]⟩, ⟨.newline, [10]⟩] rest :=
      ⟨.blank _ rfl, .newline _, trivial⟩
    rw [show [13, 10] ++ rest = textOf [⟨.blank, [13]⟩, ⟨.newline, [10]⟩] ++ rest from rfl,
      hscan.split_eq, sightings_append]
    rfl
  · rw [List.append_nil, List.append_nil]

/-- A backslash before a line ending is seen as little as the line ending. -/
theorem sightings_split_backslash (before : Text) (hending : rest.startsWithEnding = true) :
    sightings before (split (92 :: rest)) = sightings (before ++ [92]) (split rest) := by
  have hcut : ∃ ending after, rest = ending ++ after ∧ (ending = [10] ∨ ending = [13, 10]) := by
    rcases Text.startsWithEnding_eq_true.mp hending with ⟨s, rfl⟩ | ⟨s, rfl⟩
    · exact ⟨[10], s, rfl, .inl rfl⟩
    · exact ⟨[13, 10], s, rfl, .inr rfl⟩
  obtain ⟨ending, after, rfl, hending'⟩ := hcut
  have hsplit := (IsFirst.continuation after hending').split_eq
  rw [sightings_split_ending (hending'.imp_right .inl), List.append_assoc]
  exact (congrArg _ hsplit).trans (sightings_cons_of_not _ _ rfl)

/-! ### Cuts -/

/-- Behind a lexeme and a seam, the scan sees what it sees in the text after the seam. -/
theorem IsFirst.sightings_split {after : Text} (h : x.IsFirst rest) (hne : rest ≠ [])
    (hending : rest.startsWithEnding = false) (hseam : x.text.IsSeam after) (before : Text) :
    sightings before (split (x.text ++ after)) =
      sightings before [x] ++ sightings (before ++ x.text) (split after) := by
  rcases h.of_isSeam hne hending hseam with hfirst | ⟨rfl, hafter⟩
  · rw [hfirst.split_eq, ← List.singleton_append, sightings_append, textOf_cons, textOf_nil,
      List.append_nil]
  · exact sightings_split_backslash before hafter

/-- A lexeme that ends in blanks which do not end a line is a word, if it does not consist of
blanks. What is left of it without them comes first before a seam. -/
theorem IsFirst.of_isBlank {part blanks after : Text} {kind : LexemeKind}
    (h : IsFirst ⟨kind, part ++ blanks⟩ rest) (hne : rest ≠ [])
    (hending : rest.startsWithEnding = false) (hpart : part ≠ []) (hblanks : blanks ≠ [])
    (hblank : blanks.isBlank = true) (hline : blanks.IsOnLine) (hseam : part.IsSeam after) :
    kind = .word ∧ IsFirst ⟨.word, part⟩ after := by
  have hlast : (part ++ blanks).getLast? = some (blanks.getLast hblanks) := by
    rw [List.getLast?_append, List.getLast?_eq_some_getLast hblanks, Option.some_or]
  have hlength : 2 ≤ (part ++ blanks).length := by
    have := List.length_pos_iff.mpr hpart
    have := List.length_pos_iff.mpr hblanks
    rw [List.length_append]
    omega
  have hlastBlank := List.all_eq_true.mp hblank _ (List.getLast_mem hblanks)
  have hlastLine := hline _ (List.getLast_mem hblanks)
  generalize htext : part ++ blanks = text at h hlast hlength
  cases h with
  | comment line stop => exact absurd (stop.startsWithEnding hne) (ne_true_of_eq_false hending)
  | continuation _ hending =>
    rcases hending with rfl | rfl <;>
    · rw [← Option.some.inj hlast] at hlastLine
      exact Bool.noConfusion hlastLine
  | newline => exact absurd hlength (by simp)
  | @literal mark body _ quote hquote hmark hword stop =>
    rcases afterLiteral_cases hquote stop with ⟨hbody, -⟩ | ⟨s, rfl, -⟩ | hnil
    · rw [← Option.some.inj ((getLast?_literal mark hbody).symm.trans hlast)] at hlastBlank
      rw [isQuote, Bool.or_eq_true, beq_iff_eq, beq_iff_eq] at hquote
      rcases hquote with rfl | rfl <;> exact Bool.noConfusion hlastBlank
    · exact Bool.noConfusion hending
    · exact absurd hnil hne
  | word hnonempty hword stop plain =>
    rw [← htext, List.forall_mem_append] at hword
    exact ⟨rfl, isFirst_word_of_isSeam hpart hword.1 hseam⟩
  | blank => exact absurd hlength (by simp)
  | symbol => exact absurd hlength (by simp)

section Cut

variable {after : Text}

theorem ne_nil_of_head?_eq_sign (hrest : rest.head? = some (CodeUnit.ofChar '#')) (t : Text) :
    t ++ rest ≠ [] := by
  intro ht
  rw [(List.append_eq_nil_iff.mp ht).2] at hrest
  exact nomatch hrest

/-- Behind a lexeme that is followed by white space only, nothing more is seen. -/
theorem IsScan.sightings_cons_of_isBlank (h : IsScan xs rest) (hblank : (textOf xs).isBlank = true)
    (x : Lexeme) (before : Text) : sightings before (x :: xs) = sightings before [x] := by
  rw [← List.singleton_append, sightings_append, h.sightings_of_isBlank hblank, List.append_nil]

/-- White space is cut out between a lexeme and a comment. -/
theorem IsScan.sightings_split_behind (h : IsScan (x :: xs) rest)
    (hrest : rest.head? = some (CodeUnit.ofChar '#')) (hblank : (textOf xs).isBlank = true)
    (hline : (textOf xs).IsOnLine) (hseam : x.text.IsSeam after) (before : Text) :
    sightings before (split (x.text ++ after)) =
      sightings before (x :: xs) ++ sightings (before ++ x.text) (split after) := by
  rw [h.1.sightings_split (ne_nil_of_head?_eq_sign hrest _)
    (Text.startsWithEnding_append hline hrest) hseam, h.2.sightings_cons_of_isBlank hblank]

/-- White space is cut out before a comment, from inside of a lexeme on. -/
theorem IsScan.sightings_split_inside {kept blanks : Text} (h : IsScan (x :: xs) rest)
    (hrest : rest.head? = some (CodeUnit.ofChar '#')) (hx : x.text = kept ++ blanks)
    (hne : blanks ≠ []) (hblank : blanks.isBlank = true) (hline : blanks.IsOnLine)
    (hblankXs : (textOf xs).isBlank = true) (hlineXs : (textOf xs).IsOnLine)
    (hseam : kept.IsSeam after) (before : Text) :
    sightings before (split (kept ++ after)) =
      sightings before (x :: xs) ++ sightings (before ++ kept) (split after) := by
  obtain ⟨hfirst, hscan⟩ := h
  rw [hscan.sightings_cons_of_isBlank hblankXs]
  by_cases hkept : kept = []
  · -- the lexeme is white space as a whole
    rw [hkept, List.nil_append] at hx
    have hnot := hfirst.not_isPassage_of_isBlank (hx ▸ hblank)
    rw [sightings_cons_of_not before [] hnot, hkept, List.append_nil, List.nil_append,
      sightings_nil, List.nil_append]
  · -- the end of the lexeme is cut out with the white space behind it
    obtain ⟨kind, text⟩ := x
    obtain rfl : text = kept ++ blanks := hx
    obtain ⟨rfl, hfirst'⟩ := hfirst.of_isBlank (ne_nil_of_head?_eq_sign hrest _)
      (Text.startsWithEnding_append hlineXs hrest) hkept hne hblank hline hseam
    rw [hfirst'.split_eq]
    rfl

/-- The scan of a text from which white space was cut out before a comment. The text that is kept
meets the text after the cut at a seam: what is seen in both is what was seen before the comment and
what is seen after the cut. -/
theorem IsScan.sightings_split {kept cut : Text} (h : IsScan xs rest)
    (hrest : rest.head? = some (CodeUnit.ofChar '#')) (htext : textOf xs = kept ++ cut)
    (hblank : cut.isBlank = true) (hline : cut.IsOnLine) (hseam : kept.IsSeam after)
    (before : Text) :
    sightings before (split (kept ++ after)) = sightings before xs ++
    sightings (before ++ kept) (split after) := by
  induction xs generalizing kept before with
  | nil =>
    obtain ⟨rfl, -⟩ := List.append_eq_nil_iff.mp htext.symm
    rw [sightings_nil, List.nil_append, List.nil_append, List.append_nil]
  | cons x xs ih =>
    rw [textOf_cons] at htext
    rcases List.append_eq_append_iff.mp htext with ⟨part, rfl, hpart⟩ | ⟨blanks, hx, rfl⟩
    · by_cases hnil : part = []
      · rw [hnil, List.nil_append] at hpart
        rw [hnil, List.append_nil] at hseam ⊢
        exact h.sightings_split_behind hrest (hpart ▸ hblank) (hpart ▸ hline) hseam before
      · -- other lexemes are between this one and the seam
        obtain ⟨hfirst, hscan⟩ := h
        have hseam' := hseam.of_append hnil
        have hfirst' : x.IsFirst (part ++ after) := by
          rw [hpart, List.append_assoc] at hfirst
          refine hfirst.append_congr hnil ?_ after
          rintro rfl
          exact hseam'.ne_return
        have hcons : sightings before (x :: xs) = sightings before [x] ++
            sightings (before ++ x.text) xs := by
          rw [← List.singleton_append, sightings_append, textOf_cons, textOf_nil, List.append_nil]
        rw [List.append_assoc, hfirst'.split_eq, ← List.singleton_append, sightings_append,
          ih hscan hpart hseam', hcons, textOf_cons, textOf_nil]
        simp only [List.append_assoc, List.append_nil]
    · rw [Text.isBlank, List.all_append, Bool.and_eq_true] at hblank
      obtain ⟨hlineBlanks, hlineXs⟩ := List.forall_mem_append.mp hline
      by_cases hnil : blanks = []
      · rw [hnil, List.append_nil] at hx
        rw [← hx] at hseam ⊢
        exact h.sightings_split_behind hrest hblank.2 hlineXs hseam before
      · exact h.sightings_split_inside hrest hx hnil hblank.1 hlineBlanks hblank.2 hlineXs
          hseam before

end Cut

end Lexeme

end Declutter
