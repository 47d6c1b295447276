import Declutter.Proofs.Comment.Stripped
/-!
Taking comments out of a text settles in one pass, whether the text is valid Python or not
(`Text.strip_settles`): the passages of the result are those of the source without the comments that
went, and none of them goes in a second pass.
-/

set_option autoImplicit false
set_option relaxedAutoImplicit false

namespace Declutter

open scoped List

open Lexeme

/-! ### Passages and what is seen -/

/-- The passage is the sighting, at its offsets in the source. -/
structure Sighting.Marks (source : Text) (s : Sighting) (p : Passage) : Prop where
  standsIn : s.StandsIn source
  isComment_eq : (p.kind == .comment) = (s.lexeme.kind == .comment)
  span_eq : p.span = s.span

/-- The passages of a text are what is seen in it. -/
theorem Text.forall₂_marks (source : Text) :
    List.Forall₂ (Sighting.Marks source) (sightings [] (split source)) source.passages := by
  obtain ⟨htext, hscan⟩ := isScan_split source
  have hstands : ∀ s ∈ sightings [] (split source), s.StandsIn source := fun s hs ↦ by
    have hs' := standsIn_of_mem_sightings hscan hs
    rwa [htext, List.append_nil, List.nil_append] at hs'
  have hmap := (Passage.map_ofLexemes {} [] (split source)).symm
  rw [← List.forall₂_eq_eq_eq, List.forall₂_map_left_iff, List.forall₂_map_right_iff] at hmap
  refine ((List.forall₂_and_left _ _).mpr ⟨hstands, hmap⟩).imp fun s p ⟨hs, hkeys⟩ ↦ ⟨hs, ?_, ?_⟩
  · exact (congrArg Prod.fst hkeys).symm
  · exact (congrArg Prod.snd hkeys).symm

/-- What goes and what stays of the passages is what goes and what stays of the sightings. -/
theorem Text.forall₂_marks_filter (source : Text) (rules : CommentRules) (f : Bool → Bool) :
    List.Forall₂ (Sighting.Marks source)
      ((sightings [] (split source)).filter fun s ↦ f (s.isRemoved rules))
        (source.passages.filter fun p ↦ f (Strip.isRemoved source rules p)) := by
  refine List.rel_filter (fun s p h ↦ ?_) source.forall₂_marks
  change f _ = true ↔ f _ = true
  rw [h.standsIn.isRemoved_eq rules h.isComment_eq h.span_eq]

/-- Two lists that agree with a third one, element by element, agree with each other. -/
theorem forall₂_compose {α β γ : Type} {R : α → β → Prop} {S : β → γ → Prop} {T : α → γ → Prop}
    (h : ∀ a b c, R a b → S b c → T a c) {xs : List α} {ys : List β} {zs : List γ}
    (hxy : List.Forall₂ R xs ys) (hyz : List.Forall₂ S ys zs) : List.Forall₂ T xs zs := by
  induction hxy generalizing zs with
  | nil =>
    cases hyz
    exact .nil
  | cons hab _ ih =>
    cases hyz with
    | cons hbc hyz => exact .cons (h _ _ _ hab hbc) (ih hyz)

theorem forall_mem_of_forall₂ {α β : Type} {R : α → β → Prop} {p : α → Prop} {q : β → Prop}
    (h : ∀ a b, p a → R a b → q b) {xs : List α} {ys : List β} (hxy : List.Forall₂ R xs ys)
    (hxs : ∀ a ∈ xs, p a) : ∀ b ∈ ys, q b := by
  induction hxy with
  | nil => exact fun _ hb ↦ nomatch hb
  | cons hab _ ih =>
    rw [List.forall_mem_cons] at hxs ⊢
    exact ⟨h _ _ hxs.1 hab, ih hxs.2⟩

namespace Strip

/-- The passage of the source is in the text that was left as the other one: with the same units, as
a comment if it was one, at the start and on the first two lines if it was there, and as a directive
if it was one. -/
structure Survives (source stripped : Text) (p p' : Passage) : Prop where
  isComment : p'.kind = .comment ↔ p.kind = .comment
  read : p'.span.read stripped = p.span.read source
  start : p.span.start = 0 → p'.span.start = 0
  isEarlyLine : isEarlyLine source (source.lineStart p.span.start) = true →
    isEarlyLine stripped (stripped.lineStart p'.span.start) = true
  isFileDirective : p.kind = .comment → isFileDirective source p.span = true →
    isFileDirective stripped p'.span = true

theorem Becomes.survives {source stripped : Text} {s s' : Sighting} {p p' : Passage}
    (h : Becomes s s') (hp : s.Marks source p) (hp' : s'.Marks stripped p') :
    Survives source stripped p p' := by
  have hkind : (p'.kind == .comment) = (p.kind == .comment) := by
    rw [hp'.isComment_eq, hp.isComment_eq, h.1]
  refine ⟨?_, ?_, ?_, ?_, ?_⟩
  · rw [← beq_iff_eq, hkind, beq_iff_eq]
  · rw [hp.span_eq, hp'.span_eq, hp.standsIn.read_span, hp'.standsIn.read_span, h.1]
  · rw [hp.span_eq, hp'.span_eq, Sighting.span, Sighting.span, List.length_eq_zero_iff,
      List.length_eq_zero_iff]
    exact h.before_eq_nil
  · rw [hp.span_eq, hp'.span_eq, hp.standsIn.isEarlyLine_eq, hp'.standsIn.isEarlyLine_eq,
      decide_eq_true_eq, decide_eq_true_eq]
    exact h.lineFeeds_le.trans
  · intro hcomment
    have hlexeme : s.lexeme.kind = .comment := by
      rw [← beq_iff_eq, ← hp.isComment_eq, beq_iff_eq, hcomment]
    rw [hp.span_eq, hp'.span_eq, hp.standsIn.isFileDirective_eq hlexeme,
      hp'.standsIn.isFileDirective_eq (h.1 ▸ hlexeme)]
    exact h.isDirective

/-- The comments that go are those whose sightings go. -/
theorem map_removal_removed (source : Text) (rules : CommentRules) :
    (removed source rules).map (removal source rules.preserveBlankLines ·.span) =
      edits rules source [] source := by
  have hgoes := source.forall₂_marks_filter rules id
  rw [edits, ← List.forall₂_eq_eq_eq, List.forall₂_map_left_iff, List.forall₂_map_right_iff]
  exact hgoes.flip.imp fun p s h ↦ by rw [h.span_eq]

/-- The edits of the comments that go can be carried out, and they leave the text that is left of a
course. -/
theorem Course.applyAll_edits {source stripped : Text} {rules : CommentRules}
    (h : Course rules [] source stripped) :
    Edit.applyAll (edits rules source [] source) source = .ok stripped := by
  obtain ⟨hinside, hordered, hweave⟩ := h.weave_edits (List.nil_append source).symm
  rw [Edit.applyAll_eq_weave (fun e he ↦ (hinside e he).2) hordered]
  exact congrArg Except.ok hweave

end Strip

/-- Taking comments out of a text succeeds, with the text that is left of its course. -/
theorem Text.exists_strip (source : Text) (rules : CommentRules) :
    ∃ stripped, Strip.Course rules [] source stripped ∧
      source.strip rules = .ok (stripped, Strip.removed source rules) := by
  obtain ⟨stripped, hcourse⟩ := Strip.exists_course rules [] source (.inl fun _ hu ↦ nomatch hu)
  refine ⟨stripped, hcourse, ?_⟩
  rw [Text.strip, Strip.map_removal_removed, hcourse.applyAll_edits]
  rfl

/-- Taking comments out of a text only takes units away, and takes some if a comment goes. -/
theorem Text.strip_sublist {source stripped : Text} {rules : CommentRules} {removed : List Passage}
    (h : source.strip rules = .ok (stripped, removed)) :
    stripped <+ source ∧ (removed ≠ [] → stripped.length < source.length) := by
  obtain ⟨_, hcourse, hstrip⟩ := source.exists_strip rules
  obtain ⟨rfl, rfl⟩ := Prod.mk.inj (Except.ok.inj (hstrip.symm.trans h))
  refine ⟨hcourse.sublist, fun hne ↦ hcourse.length_lt ?_⟩
  by_contra hnone
  have hseen : (sightings [] (split source)).filter (fun s ↦ id (s.isRemoved rules)) = [] :=
    List.filter_eq_nil_iff.mpr fun s hs hremoved ↦ hnone ⟨s, hs, hremoved⟩
  have hgoes := source.forall₂_marks_filter rules id
  rw [hseen, List.forall₂_nil_left_iff] at hgoes
  exact hne hgoes

/-- Taking comments out of a text succeeds. In order, the passages of the result are those of the
source but for the comments that go: each has the same units and is a comment if it was one, a
comment at the start of the text is there again, and a comment on one of the first two lines is on
one of them again and declares what it declared. The literals of the two texts are the same. Taking
comments out of the result changes nothing. -/
theorem Text.strip_settles (source : Text) (rules : CommentRules) :
    ∃ stripped, source.strip rules = .ok (stripped, Strip.removed source rules) ∧
      List.Forall₂ (Strip.Survives source stripped)
        (source.passages.filter (!Strip.isRemoved source rules ·)) stripped.passages ∧
      (stripped.passages.filter (·.kind != .comment)).map (·.span.read stripped) =
        (source.passages.filter (·.kind != .comment)).map (·.span.read source) ∧
      stripped.strip rules = .ok (stripped, []) := by
  have hempty : Text.EndsLine [] := fun _ hu ↦ nomatch hu
  obtain ⟨stripped, hcourse, hstrip⟩ := source.exists_strip rules
  have hbecomes := hcourse.forall₂_becomes [] (.inr ⟨hempty, hempty, id, le_rfl⟩)
  have hsurvives : List.Forall₂ (Strip.Survives source stripped)
      (source.passages.filter (!Strip.isRemoved source rules ·)) stripped.passages := by
    have hleft : List.Forall₂ (fun p s' ↦ ∃ s, Sighting.Marks source s p ∧ Strip.Becomes s s')
        (source.passages.filter (!Strip.isRemoved source rules ·))
          (sightings [] (split stripped)) :=
      forall₂_compose (fun p s s' hp hs ↦ ⟨s, hp, hs⟩) (source.forall₂_marks_filter rules not).flip
        hbecomes
    exact forall₂_compose (fun p s' p' ⟨s, hp, hs⟩ hp' ↦ hs.survives hp hp') hleft
      stripped.forall₂_marks
  have hnone : Strip.removed stripped rules = [] := by
    have hstays : ∀ s' ∈ sightings [] (split stripped), s'.isRemoved rules = false :=
      forall_mem_of_forall₂ (fun s s' hs h ↦ h.isRemoved hs) hbecomes fun s hs ↦ by
        simpa using (List.mem_filter.mp hs).2
    have hseen : (sightings [] (split stripped)).filter (fun s' ↦ id (s'.isRemoved rules)) = [] :=
      List.filter_eq_nil_iff.mpr fun s' hs' ↦ ne_true_of_eq_false (hstays s' hs')
    have hgoes := stripped.forall₂_marks_filter rules id
    rw [hseen, List.forall₂_nil_left_iff] at hgoes
    exact hgoes
  have hliterals : List.Forall₂ (Strip.Survives source stripped)
      (source.passages.filter (·.kind != .comment))
        (stripped.passages.filter (·.kind != .comment)) := by
    have hkept : (source.passages.filter (!Strip.isRemoved source rules ·)).filter
      (·.kind != .comment) =
        source.passages.filter (·.kind != .comment) := by
      rw [List.filter_filter]
      refine List.filter_congr fun p _ ↦ ?_
      cases hkind : p.kind <;> simp [Strip.isRemoved, hkind]
    rw [← hkept]
    refine List.rel_filter (fun p p' h ↦ ?_) hsurvives
    change (p.kind != .comment) = true ↔ (p'.kind != .comment) = true
    rw [bne_iff_ne, bne_iff_ne, Ne, Ne, h.isComment]
  refine ⟨stripped, hstrip, hsurvives, ?_, ?_⟩
  · rw [← List.forall₂_eq_eq_eq, List.forall₂_map_left_iff, List.forall₂_map_right_iff]
    exact hliterals.flip.imp fun p' p h ↦ h.read
  · have hnoEdits : Edit.applyAll [] stripped = .ok stripped := by
      rw [Edit.applyAll, List.mergeSort_nil]
      rfl
    rw [Text.strip, hnone, List.map_nil, hnoEdits]
    rfl

end Declutter
