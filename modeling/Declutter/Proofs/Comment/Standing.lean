import Declutter.Comment.Strip
import Declutter.Proofs.Comment.Sighting
/-!
Comments and literals where they stand in a text. The passages of a text are its sightings at their
offsets (`Passage.map_ofLexemes`). Whether a comment is a directive depends on the comment, on the
part of its line before it and on the number of line feeds before it
(`Sighting.StandsIn.isFileDirective_eq`), so that it can be asked of a sighting without the text
around it.
-/

set_option autoImplicit false
set_option relaxedAutoImplicit false

namespace Declutter

/-! ### The line before an offset -/

namespace Text

theorem EndsLine.append {s t : Text} (hs : s.EndsLine) (ht : t.EndsLine) :
    Text.EndsLine (s ++ t) := by
  intro u hu
  rw [List.getLast?_append] at hu
  cases hlast : t.getLast? with
  | none => exact hs u (by rwa [hlast] at hu)
  | some v => exact ht u (by rw [hlast] at hu ⊢; exact hu)

/-- The number of line feeds. -/
def lineFeeds (t : Text) : Nat := t.countP CodeUnit.isNewline

/-- The part of the text behind its last line feed. -/
def lastLine (t : Text) : Text := t.drop (t.lineStart t.length)

theorem lineFeeds_append (s t : Text) : lineFeeds (s ++ t) = s.lineFeeds + t.lineFeeds :=
  List.countP_append

theorem IsOnLine.lineFeeds_eq_zero {t : Text} (h : t.IsOnLine) : t.lineFeeds = 0 :=
  List.countP_eq_zero.mpr fun u hu ↦ ne_true_of_eq_false (h u hu)

theorem EndsLine.lineFeeds_eq_zero_iff {t : Text} (h : t.EndsLine) : t.lineFeeds = 0 ↔ t = [] := by
  refine ⟨fun hzero ↦ ?_, fun hnil ↦ hnil ▸ rfl⟩
  by_contra hne
  have hlast := h _ (List.getLast?_eq_some_getLast hne)
  exact List.countP_eq_zero.mp hzero _ (List.getLast_mem hne) hlast

theorem endsLine_concat (t : Text) : EndsLine (t ++ [10]) := by
  intro u hu
  rw [List.getLast?_concat] at hu
  obtain rfl := Option.some.inj hu
  rfl

/-- A text is cut at the start of its last line. -/
theorem exists_cut_lastLine (t : Text) :
    ∃ lines part : Text, t = lines ++ part ∧ lines.EndsLine ∧ part.IsOnLine := by
  obtain ⟨lines, part, htext, hlines, hpart, -⟩ := exists_lineStart t t.length
  rw [List.take_length] at htext
  exact ⟨lines, part, htext, hlines, hpart⟩

/-- A text with a non-blank end has it on its last line. -/
theorem exists_getLast?_of_cut {lines part : Text} (hlines : lines.EndsLine)
    (h : ∃ u, (lines ++ part).getLast? = some u ∧ u.isBlank = false) :
    ∃ u, part.getLast? = some u ∧ u.isBlank = false := by
  obtain ⟨u, hlast, hnot⟩ := h
  refine ⟨u, ?_, hnot⟩
  rw [List.getLast?_append] at hlast
  cases hpart : part.getLast? with
  | some v => rwa [hpart] at hlast
  | none =>
    -- the line would be empty, and a line feed is blank
    rw [hpart, Option.none_or] at hlast
    rw [CodeUnit.isBlank_of_isNewline (hlines u hlast)] at hnot
    exact Bool.noConfusion hnot

theorem lastLine_of_cut {lines part : Text} (hlines : lines.EndsLine) (hpart : part.IsOnLine) :
    lastLine (lines ++ part) = part := by
  have hstart := lineStart_append [] hlines hpart
  rw [List.append_nil] at hstart
  rw [lastLine, List.length_append, hstart, List.drop_left]

/-- The last line does not depend on the lines before it. -/
theorem lastLine_append {s : Text} (hs : s.EndsLine) (t : Text) :
    lastLine (s ++ t) = t.lastLine := by
  obtain ⟨lines, part, rfl, hlines, hpart⟩ := exists_cut_lastLine t
  rw [← List.append_assoc, lastLine_of_cut (hs.append hlines) hpart, lastLine_of_cut hlines hpart]

end Text

namespace Strip

/-- A line is one of the first two if at most one line feed is before it. -/
theorem isEarlyLine_length {lines : Text} (rest : Text) (hlines : lines.EndsLine) :
    isEarlyLine (lines ++ rest) lines.length = decide (lines.lineFeeds ≤ 1) := by
  rcases List.eq_nil_or_concat lines with rfl | ⟨others, u, rfl⟩
  · rfl
  obtain rfl : u = 10 := beq_iff_eq.mp (hlines u (by simp))
  obtain ⟨before, part, rfl, hbefore, hpart⟩ := Text.exists_cut_lastLine others
  have hstart := Text.lineStart_append (10 :: rest) hbefore hpart
  have hfeeds : Text.lineFeeds (before ++ part ++ [10]) = before.lineFeeds + 1 := by
    rw [Text.lineFeeds_append, Text.lineFeeds_append, hpart.lineFeeds_eq_zero]
    rfl
  have htext : before ++ part ++ [10] ++ rest = before ++ (part ++ 10 :: rest) := by simp
  have hlength : (before ++ part ++ [10]).length - 1 = before.length + part.length := by simp
  have hpos : ((before ++ part ++ [10]).length == 0) = false := by simp
  rw [isEarlyLine, List.concat_eq_append, hlength, htext, hstart, hfeeds, hpos, Bool.false_or,
    Bool.eq_iff_iff, beq_iff_eq, decide_eq_true_eq, List.length_eq_zero_iff,
    ← hbefore.lineFeeds_eq_zero_iff]
  omega

end Strip

/-! ### Directives -/

/-- Whether a comment at the start of a text names the interpreter does not depend on the text after
it. -/
theorem Lexeme.IsFirst.isPrefixOf_shebang {x : Lexeme} {after : Text} (h : x.IsFirst after)
    (hcomment : x.kind = .comment) :
    ("#!" : Text).isPrefixOf (x.text ++ after) = ("#!" : Text).isPrefixOf x.text := by
  have hshebang : ("#!" : Text) = [35, 33] := by decide
  rw [hshebang]
  cases h with
  | @comment body _ _ stop =>
    cases body with
    | cons u b => rfl
    | nil =>
      rcases stop with rfl | ⟨hhead, -⟩ | ⟨s, rfl⟩
      · rfl
      · obtain ⟨s, rfl⟩ := List.head?_eq_some_iff.mp hhead
        rfl
      · rfl
  | _ => exact absurd hcomment (by simp)

namespace Sighting

def span (s : Sighting) : Span := ⟨s.before.length, s.before.length + s.lexeme.text.length⟩

/-- Whether the comment is a directive of its file, as far as the text up to its end says. -/
def isDirective (s : Sighting) : Bool :=
  (s.before.isEmpty && ("#!" : Text).isPrefixOf s.lexeme.text)
    ||
      (decide (s.before.lineFeeds ≤ 1) &&
        Strip.declaresEncoding (s.before.lastLine ++ s.lexeme.text))

/-- Whether the sighting is a comment that the rules let go. -/
def isRemoved (rules : CommentRules) (s : Sighting) : Bool :=
  s.lexeme.kind == .comment && !(rules.preserveDirectives && s.isDirective) &&
    !rules.keeps s.lexeme.text

/-- The sighting stands in the text: the text goes on after it so that the lexeme comes first behind
the text before it. -/
def StandsIn (source : Text) (s : Sighting) : Prop :=
  ∃ after, source = s.before ++ (s.lexeme.text ++ after) ∧ s.lexeme.IsFirst after

variable {source : Text} {s : Sighting}

theorem StandsIn.read_span (h : s.StandsIn source) : s.span.read source = s.lexeme.text := by
  obtain ⟨after, rfl, -⟩ := h
  exact Text.slice_append s.before s.lexeme.text after

theorem StandsIn.isEarlyLine_eq (h : s.StandsIn source) :
    Strip.isEarlyLine source (source.lineStart s.span.start) = decide (s.before.lineFeeds ≤ 1) := by
  obtain ⟨after, rfl, -⟩ := h
  obtain ⟨lines, part, hbefore, hlines, hpart⟩ := Text.exists_cut_lastLine s.before
  have hstart := Text.lineStart_append (s.lexeme.text ++ after) hlines hpart
  rw [span, hbefore, List.length_append, List.append_assoc, hstart,
    Strip.isEarlyLine_length _ hlines, Text.lineFeeds_append, hpart.lineFeeds_eq_zero, Nat.add_zero]

/-- A comment is a directive by what stands before it and in it. -/
theorem StandsIn.isFileDirective_eq (h : s.StandsIn source) (hcomment : s.lexeme.kind = .comment) :
    Strip.isFileDirective source s.span = s.isDirective := by
  have hearly := h.isEarlyLine_eq
  obtain ⟨after, rfl, hfirst⟩ := h
  obtain ⟨lines, part, hbefore, hlines, hpart⟩ := Text.exists_cut_lastLine s.before
  have hstart := Text.lineStart_append (s.lexeme.text ++ after) hlines hpart
  have hslice := Text.slice_append lines (part ++ s.lexeme.text) after
  have hshebang :
    (s.span.start == 0 && ("#!" : Text).isPrefixOf (s.before ++ (s.lexeme.text ++ after))) =
      (s.before.isEmpty && ("#!" : Text).isPrefixOf s.lexeme.text) := by
    rw [span]
    cases s.before with
    | nil => exact hfirst.isPrefixOf_shebang hcomment
    | cons u t => rfl
  have hline : (s.before ++ (s.lexeme.text ++ after)).slice
      ((s.before ++ (s.lexeme.text ++ after)).lineStart s.span.start) s.span.stop =
        s.before.lastLine ++ s.lexeme.text := by
    rw [List.append_assoc, List.length_append] at hslice
    rw [span, hbefore, List.length_append, List.append_assoc, hstart, Nat.add_assoc, hslice,
      Text.lastLine_of_cut hlines hpart]
  rw [Strip.isFileDirective, hearly, hshebang, hline, isDirective]

/-- The rules let a passage go as they let its sighting go. -/
theorem StandsIn.isRemoved_eq (h : s.StandsIn source) (rules : CommentRules) {p : Passage}
    (hkind : (p.kind == .comment) = (s.lexeme.kind == .comment)) (hspan : p.span = s.span) :
    Strip.isRemoved source rules p = s.isRemoved rules := by
  rw [Strip.isRemoved, isRemoved, hspan, h.read_span]
  by_cases hcomment : s.lexeme.kind = .comment
  · rw [h.isFileDirective_eq hcomment, ← hkind]
    rfl
  · have hfalse := hkind.trans (beq_eq_false_iff_ne.mpr hcomment)
    change ((p.kind == .comment) && _ && _) = _
    rw [← hkind, hfalse]
    rfl

end Sighting

namespace Lexeme

/-- What is seen in a text stands in it. -/
theorem standsIn_of_mem_sightings {before rest : Text} {xs : List Lexeme} (hscan : IsScan xs rest)
    {s : Sighting} (hs : s ∈ sightings before xs) : s.StandsIn (before ++ (textOf xs ++ rest)) := by
  induction xs generalizing before with
  | nil => exact nomatch hs
  | cons x xs ih =>
    rw [textOf_cons, List.append_assoc]
    have hlater : s ∈ sightings (before ++ x.text) xs →
        s.StandsIn (before ++ (x.text ++ (textOf xs ++ rest))) := fun hs ↦ by
      rw [← List.append_assoc]
      exact ih hscan.2 hs
    rw [sightings] at hs
    split_ifs at hs
    · rcases List.mem_cons.mp hs with rfl | hs
      · exact ⟨textOf xs ++ rest, rfl, hscan.1⟩
      · exact hlater hs
    · exact hlater hs

end Lexeme

/-- The passages of a text are what is seen in it, at the same offsets. -/
theorem Passage.map_ofLexemes (state : State) (before : Text) (xs : List Lexeme) :
    (ofLexemes state before.length xs).map (fun p ↦ (p.kind == .comment, p.span)) =
      (Lexeme.sightings before xs).map fun s ↦ (s.lexeme.kind == .comment, s.span) := by
  induction xs generalizing state before with
  | nil => rfl
  | cons x xs ih =>
    have hlater := ih (state.step x) (before ++ x.text)
    rw [List.length_append] at hlater
    rw [ofLexemes, List.map_append, hlater, Lexeme.sightings]
    obtain ⟨kind, text⟩ := x
    cases kind with
    | literal =>
      rw [kindOf]
      cases state.opensDocstring && endsStatement state.depth xs <;> rfl
    | comment => rfl
    | word => rfl
    | newline => rfl
    | blank => rfl
    | continuation => rfl
    | symbol => rfl

/-- The comments and literals that the scan finds among lexemes, with their texts. -/
def Passage.found (s : State) : List Lexeme → List (PassageKind × Text)
  | [] => []
  | x :: xs => ((kindOf s x xs).map (·, x.text)).toList ++ found (s.step x) xs

/-- The passages that the scan finds among the lexemes of a text, read in the text. -/
theorem Passage.map_read_ofLexemes (s : State) (before : Text) (xs : List Lexeme) (after : Text) :
    (ofLexemes s before.length xs).map
      (fun p ↦ (p.kind, p.span.read (before ++ (Lexeme.textOf xs ++ after)))) = found s xs := by
  induction xs generalizing s before with
  | nil => rfl
  | cons x xs ih =>
    have hlater := ih (s.step x) (before ++ x.text)
    have hread : Span.read (before ++ (x.text ++ (Lexeme.textOf xs ++ after)))
        ⟨before.length, before.length + x.text.length⟩ = x.text := Text.slice_append before x.text _
    rw [List.length_append, List.append_assoc] at hlater
    rw [ofLexemes, List.map_append, Lexeme.textOf_cons, List.append_assoc, hlater, found]
    cases kindOf s x xs with
    | none => rfl
    | some kind => exact congrArg (fun t ↦ (kind, t) :: found (s.step x) xs) hread

/-- The passages of a text, read in it. -/
theorem Text.map_read_passages (t : Text) :
    t.passages.map (fun p ↦ (p.kind, p.span.read t)) = Passage.found {} (Lexeme.split t) := by
  have hread := Passage.map_read_ofLexemes {} [] (Lexeme.split t) []
  rwa [(Lexeme.isScan_split t).1, List.append_nil, List.nil_append] at hread

end Declutter
