import Declutter.Proofs.Comment.Settled
/-!
Where the comments and literals of a text are. On any text, valid Python or not, the scan takes at
least one unit in each of its steps, so that it ends after as many steps as there are units at most
(`Lexeme.length_split_le`). The spans of its passages come one after the other
(`Passage.pairwise_ofLexemes`). Lexemes of other kinds hold no number sign and no quote
(`Lexeme.IsFirst.isPassage_of_mem`), so that each of these is inside of a passage
(`Passage.exists_mem_ofLexemes`). A comment goes from its number sign to the end of its line, and a
literal from its quote, or from the mark before it, to such a quote, to a line feed or to the end of
the text (`Text.passages_placed`).
-/

set_option autoImplicit false
set_option relaxedAutoImplicit false

namespace Declutter

/-- The span is that of a comment: it starts with a number sign, it is on one line, and it stops at
the end of the text or at a line ending, of which it takes no unit. -/
structure Span.IsComment (t : Text) (s : Span) : Prop where
  sign : t[s.start]? = some (CodeUnit.ofChar '#')
  line : ∀ i, s.start ≤ i → i < s.stop → t[i]? ≠ some 10
  stop : s.stop = t.length ∨ t[s.stop]? = some 10 ∨ t[s.stop]? = some 13 ∧ t[s.stop + 1]? = some 10
  ending : t[s.stop]? = some 10 → t[s.stop - 1]? ≠ some 13

/-- The span is that of a literal: a quote is at its start, or behind a mark of literals at its
start, and it stops behind another such quote, at a line feed or at the end of the text. -/
def Span.IsLiteral (t : Text) (s : Span) : Prop :=
  ∃ (i : Nat) (quote : CodeUnit), s.start ≤ i ∧ i < s.stop ∧ t[i]? = some quote ∧
    Lexeme.isQuote quote = true ∧
    (i = s.start ∨ Lexeme.isLiteralPrefix (t.slice s.start i) = true) ∧
      (i + 1 < s.stop ∧ t[s.stop - 1]? = some quote ∨ t[s.stop]? = some 10 ∨ s.stop = t.length)

/-! ### Lexemes -/

namespace Lexeme

variable {x : Lexeme} {xs : List Lexeme} {before rest : Text}

/-- The scan of a text takes no more steps than there are units. -/
theorem length_split_le (t : Text) : (split t).length ≤ t.length := by
  induction t using split.induct with
  | case1 =>
    rw [split]
    exact le_rfl
  | case2 u rest ih =>
    have hlt := length_next_lt u rest
    rw [split, List.length_cons]
    omega

theorem IsFirst.text_ne_nil (h : x.IsFirst rest) : x.text ≠ [] := by
  cases h with
  | word hne => exact hne
  | literal => exact List.append_ne_nil_of_right_ne_nil _ (List.cons_ne_nil _ _)
  | _ => exact List.cons_ne_nil _ _

/-- A unit with which a comment or a literal begins, but for the mark of the literal. -/
def opensPassage (u : CodeUnit) : Bool := u == '#' || isQuote u

/-- Only comments and literals hold number signs and quotes. -/
theorem IsFirst.isPassage_of_mem (h : x.IsFirst rest) {u : CodeUnit} (hu : u ∈ x.text)
    (hopens : opensPassage u = true) : x.isPassage = true := by
  cases h with
  | comment => rfl
  | literal => rfl
  | continuation _ hending =>
    rcases List.mem_cons.mp hu with rfl | hu
    · exact Bool.noConfusion hopens
    · rcases hending with rfl | rfl
      · obtain rfl := List.mem_singleton.mp hu
        exact Bool.noConfusion hopens
      · rcases List.mem_pair.mp hu with rfl | rfl <;> exact Bool.noConfusion hopens
  | newline =>
    obtain rfl := List.mem_singleton.mp hu
    exact Bool.noConfusion hopens
  | word hne hword =>
    obtain ⟨hsign, -, -, hquote⟩ := of_isWordUnit (hword u hu)
    rw [opensPassage, hsign, hquote] at hopens
    exact Bool.noConfusion hopens
  | blank _ hblank =>
    obtain rfl := List.mem_singleton.mp hu
    rcases eq_of_isInlineBlank hblank with rfl | rfl | rfl | rfl | rfl <;>
      exact Bool.noConfusion hopens
  | symbol hsymbol =>
    obtain rfl := List.mem_singleton.mp hu
    simp only [isSymbolUnit, Bool.not_eq_true', Bool.or_eq_false_iff] at hsymbol
    rw [opensPassage, hsymbol.1.1.1.1, hsymbol.1.1.2] at hopens
    exact Bool.noConfusion hopens

theorem isPassage_of_mem_sightings {s : Sighting} (hs : s ∈ sightings before xs) :
    s.lexeme.isPassage = true := by
  induction xs generalizing before with
  | nil => exact nomatch hs
  | cons x xs ih =>
    rw [sightings] at hs
    split_ifs at hs with hpassage
    · rcases List.mem_cons.mp hs with rfl | hs
      · exact hpassage
      · exact ih hs
    · exact ih hs

end Lexeme

/-! ### Passages among lexemes -/

namespace Passage

variable {state : State} {offset : Nat} {xs : List Lexeme} {p : Passage}

theorem mem_ofLexemes_cons {x : Lexeme} :
    p ∈ ofLexemes state offset (x :: xs) ↔
      (∃ kind, kindOf state x xs = some kind ∧ p = ⟨kind, offset, offset + x.text.length⟩) ∨
        p ∈ ofLexemes (state.step x) (offset + x.text.length) xs := by
  rw [ofLexemes, List.mem_append, Option.mem_toList, Option.map_eq_some_iff]
  simp only [eq_comm]

theorem le_of_mem_ofLexemes (h : p ∈ ofLexemes state offset xs) : offset ≤ p.span.start := by
  induction xs generalizing state offset with
  | nil => exact nomatch h
  | cons x xs ih =>
    rcases mem_ofLexemes_cons.mp h with ⟨kind, -, rfl⟩ | hlater
    · exact le_rfl
    · exact (Nat.le_add_right _ _).trans (ih hlater)

/-- Each passage stops before the passages after it start. -/
theorem pairwise_ofLexemes (state : State) (offset : Nat) (xs : List Lexeme) :
    (ofLexemes state offset xs).Pairwise (fun p q ↦ p.span.stop ≤ q.span.start) := by
  induction xs generalizing state offset with
  | nil => exact .nil
  | cons x xs ih =>
    have hlater := ih (state.step x) (offset + x.text.length)
    rw [ofLexemes]
    cases kindOf state x xs with
    | none => exact hlater
    | some kind => exact .cons (fun q hq ↦ le_of_mem_ofLexemes hq) hlater

theorem exists_kindOf {x : Lexeme} (h : x.isPassage = true) (state : State) (xs : List Lexeme) :
    ∃ kind, kindOf state x xs = some kind := by
  rw [Lexeme.isPassage, Bool.or_eq_true, beq_iff_eq, beq_iff_eq] at h
  rcases h with hkind | hkind <;> exact ⟨_, by rw [kindOf, hkind]⟩

/-- A unit that opens a passage is inside of one, wherever it is in the text that lexemes make. -/
theorem exists_mem_ofLexemes {rest : Text} (hscan : Lexeme.IsScan xs rest) {i : Nat} {u : CodeUnit}
    (hu : (Lexeme.textOf xs)[i]? = some u) (hopens : Lexeme.opensPassage u = true) (state : State)
    (offset : Nat) :
    ∃ p ∈ ofLexemes state offset xs, p.span.start ≤ offset + i ∧ offset + i < p.span.stop := by
  induction xs generalizing i state offset with
  | nil => exact nomatch hu
  | cons x xs ih =>
    rw [Lexeme.textOf_cons] at hu
    rcases Nat.lt_or_ge i x.text.length with hlt | hge
    · -- the unit is in this lexeme, which is then a passage
      rw [List.getElem?_append_left hlt] at hu
      have hpassage := hscan.1.isPassage_of_mem (List.mem_of_getElem? hu) hopens
      obtain ⟨kind, hkind⟩ := exists_kindOf hpassage state xs
      exact ⟨_, mem_ofLexemes_cons.mpr (.inl ⟨kind, hkind, rfl⟩), Nat.le_add_right _ _,
        Nat.add_lt_add_left hlt _⟩
    · rw [List.getElem?_append_right hge] at hu
      obtain ⟨p, hp, hstart, hstop⟩ := ih hscan.2 hu (state.step x) (offset + x.text.length)
      exact ⟨p, mem_ofLexemes_cons.mpr (.inr hp), by omega, by omega⟩

end Passage

/-! ### Lexemes at their spans -/

open Lexeme

/-- The lexeme is at the span in a text, and `after` is the text behind it. -/
structure Lexeme.IsAt (source : Text) (x : Lexeme) (span : Span) (after : Text) : Prop where
  first : x.IsFirst after
  stop_eq : span.stop = span.start + x.text.length
  length_eq : source.length = span.stop + after.length
  inside : ∀ k < x.text.length, source[span.start + k]? = x.text[k]?
  behind : ∀ k, source[span.stop + k]? = after[k]?

theorem Sighting.StandsIn.exists_isAt {source : Text} {s : Sighting} (h : s.StandsIn source) :
    ∃ after, s.lexeme.IsAt source s.span after := by
  obtain ⟨after, rfl, hfirst⟩ := h
  refine ⟨after, hfirst, rfl, ?_, fun k hk ↦ ?_, fun k ↦ ?_⟩
  · rw [← List.append_assoc, List.length_append, List.length_append, Sighting.span]
  · rw [Sighting.span, List.getElem?_append_right (Nat.le_add_right _ _), Nat.add_sub_cancel_left,
      List.getElem?_append_left hk]
  · rw [Sighting.span, ← List.append_assoc, ← List.length_append,
      List.getElem?_append_right (Nat.le_add_right _ _), Nat.add_sub_cancel_left]

namespace Lexeme.IsAt

variable {source after : Text} {x : Lexeme} {span : Span}

theorem start_lt_stop (h : x.IsAt source span after) : span.start < span.stop := by
  rw [h.stop_eq]
  exact Nat.lt_add_of_pos_right (List.length_pos_iff.mpr h.first.text_ne_nil)

theorem stop_le (h : x.IsAt source span after) : span.stop ≤ source.length := by
  rw [h.length_eq]
  exact Nat.le_add_right _ _

theorem getElem?_last (h : x.IsAt source span after) :
    source[span.stop - 1]? = x.text.getLast? := by
  have hpos := List.length_pos_iff.mpr h.first.text_ne_nil
  rw [List.getLast?_eq_getElem?, ← h.inside _ (Nat.sub_one_lt_of_lt hpos),
    ← Nat.add_sub_assoc hpos, h.stop_eq]

/-- The lexeme begins with what stands in the text at its start. -/
theorem slice_eq {part rest : Text} (h : x.IsAt source span after) (htext : x.text = part ++ rest) :
    source.slice span.start (span.start + part.length) = part := by
  refine List.ext_getElem? fun k ↦ ?_
  have hwidth : x.text.length = part.length + rest.length := by rw [htext, List.length_append]
  rw [Text.getElem?_slice]
  split_ifs with hk
  · have hk' : k < part.length := Nat.lt_of_add_lt_add_left hk
    rw [h.inside k (by omega), htext, List.getElem?_append_left hk']
  · exact (List.getElem?_eq_none (by omega)).symm

/-- A comment is stopped by what comes after it. -/
theorem isComment (h : x.IsAt source span after) (hcomment : x.kind = .comment) :
    span.IsComment source := by
  have hlast := h.getElem?_last
  obtain ⟨hfirst, hstop, hlength, hinside, hbehind⟩ := h
  cases hfirst with
  | @comment body _ line stop =>
    have hline : Text.IsOnLine (CodeUnit.ofChar '#' :: body) := List.forall_mem_cons.mpr ⟨rfl, line⟩
    refine ⟨hinside 0 (Nat.succ_pos _), fun i hi hlt hten ↦ ?_, ?_, fun hten hreturn ↦ ?_⟩
    · obtain ⟨k, rfl⟩ := Nat.exists_eq_add_of_le hi
      rw [hstop] at hlt
      have hmem :=
        List.mem_of_getElem? ((hinside k (Nat.lt_of_add_lt_add_left hlt)).symm.trans hten)
      exact Bool.noConfusion (hline 10 hmem)
    · rcases stop with rfl | ⟨hhead, -⟩ | ⟨t, rfl⟩
      · exact .inl hlength.symm
      · exact .inr (.inl ((hbehind 0).trans (List.head?_eq_getElem?.symm.trans hhead)))
      · exact .inr (.inr ⟨hbehind 0, hbehind 1⟩)
    · have hhead := (hbehind 0).symm.trans hten
      rcases stop with rfl | ⟨-, hbody⟩ | ⟨t, rfl⟩
      · exact nomatch hhead
      · -- the last unit is in the body, or it is the number sign
        rw [hlast, List.getLast?_cons, Option.some_inj] at hreturn
        cases hbodyLast : body.getLast? with
        | none =>
          rw [hbodyLast] at hreturn
          exact absurd hreturn (by decide)
        | some u =>
          rw [hbodyLast] at hreturn hbody
          exact hbody (congrArg some hreturn)
      · exact absurd (Option.some.inj hhead) (by decide)
  | _ => exact absurd hcomment (by simp)

/-- A literal is stopped by its closing quotes or by what comes after it. -/
theorem isLiteral (h : x.IsAt source span after) (hliteral : x.kind = .literal) :
    span.IsLiteral source := by
  have hlast := h.getElem?_last
  have hslice : ∀ part rest, x.text = part ++ rest →
      source.slice span.start (span.start + part.length) = part := fun _ _ ↦ h.slice_eq
  obtain ⟨hfirst, hstop, hlength, hinside, hbehind⟩ := h
  cases hfirst with
  | @literal mark body _ quote hquote hmark hword stop =>
    have hwidth : (mark ++ quote :: body).length = mark.length + (body.length + 1) :=
      List.length_append
    dsimp only at hstop hinside
    refine ⟨span.start + mark.length, quote, Nat.le_add_right _ _, by omega, ?_, hquote, ?_, ?_⟩
    · rw [hinside _ (by omega), List.getElem?_append_right le_rfl, Nat.sub_self,
        List.getElem?_cons_zero]
    · rcases hmark with rfl | hmark
      · exact .inl rfl
      · exact .inr ((hslice mark (quote :: body) rfl).symm ▸ hmark)
    · rcases afterLiteral_cases hquote stop with ⟨hclosed, -⟩ | ⟨t, rfl, -⟩ | rfl
      · have hpos : 0 < body.length := List.length_pos_iff.mpr fun hnil ↦ by simp [hnil] at hclosed
        exact .inl ⟨by omega, hlast.trans (getLast?_literal mark hclosed)⟩
      · exact .inr (.inl (hbehind 0))
      · exact .inr (.inr hlength.symm)
  | _ => exact absurd hliteral (by simp)

end Lexeme.IsAt

/-- The passages of a text are the comments and the literals among its lexemes, each at its span. -/
theorem Text.exists_isAt (t : Text) :
    ∀ p ∈ t.passages, ∃ x after, Lexeme.IsAt t x p.span after ∧
      (p.kind = .comment → x.kind = .comment) ∧ (p.kind ≠ .comment → x.kind = .literal) := by
  refine forall_mem_of_forall₂ (fun s p hpassage hmarks ↦ ?_) t.forall₂_marks fun s ↦
    isPassage_of_mem_sightings
  obtain ⟨after, hat⟩ := hmarks.standsIn.exists_isAt
  rw [← hmarks.span_eq] at hat
  have hkind := hmarks.isComment_eq
  refine ⟨s.lexeme, after, hat, fun hcomment ↦ ?_, fun hcomment ↦ ?_⟩
  · rw [hcomment, beq_self_eq_true, eq_comm, beq_iff_eq] at hkind
    exact hkind
  · rw [beq_eq_false_iff_ne.mpr hcomment] at hkind
    rw [isPassage, ← hkind, Bool.false_or, beq_iff_eq] at hpassage
    exact hpassage

/-- Where the comments and literals of a text are. The scan goes through the whole text, in as many
steps as the text has units at most. Every passage has units and is in the text, it stops before the
next one starts, and number signs and quotes are nowhere but inside of passages. Comments and
literals begin and end as such. -/
theorem Text.passages_placed (t : Text) :
    Lexeme.textOf (Lexeme.split t) = t ∧ (Lexeme.split t).length ≤ t.length ∧
      (∀ p ∈ t.passages, p.span.start < p.span.stop ∧ p.span.stop ≤ t.length) ∧
      t.passages.Pairwise (fun p q ↦ p.span.stop ≤ q.span.start) ∧
      (∀ i u, t[i]? = some u → u = CodeUnit.ofChar '#' ∨ Lexeme.isQuote u = true →
        ∃ p ∈ t.passages, p.span.start ≤ i ∧ i < p.span.stop) ∧
      (∀ p ∈ t.passages, p.kind = .comment → p.span.IsComment t) ∧
      ∀ p ∈ t.passages, p.kind ≠ .comment → p.span.IsLiteral t := by
  obtain ⟨htext, hscan⟩ := isScan_split t
  refine ⟨htext, length_split_le t, fun p hp ↦ ?_, Passage.pairwise_ofLexemes {} 0 _,
    fun i u hu hopens ↦ ?_, fun p hp hcomment ↦ ?_, fun p hp hliteral ↦ ?_⟩
  · obtain ⟨x, after, hat, -⟩ := t.exists_isAt p hp
    exact ⟨hat.start_lt_stop, hat.stop_le⟩
  · have hopens' : opensPassage u = true := by rwa [opensPassage, Bool.or_eq_true, beq_iff_eq]
    obtain ⟨p, hp, hstart, hstop⟩ :=
      Passage.exists_mem_ofLexemes hscan (htext.symm ▸ hu) hopens' {} 0
    rw [Nat.zero_add] at hstart hstop
    exact ⟨p, hp, hstart, hstop⟩
  · obtain ⟨x, after, hat, hkind, -⟩ := t.exists_isAt p hp
    exact hat.isComment (hkind hcomment)
  · obtain ⟨x, after, hat, -, hkind⟩ := t.exists_isAt p hp
    exact hat.isLiteral (hkind hliteral)

/-- A comment with quotes in it, a literal that is not closed on its line, brackets without
partners, and a literal that is still open where the text ends in a backslash. -/
def unruly : Text := "#\"'\r\n)rb'\\'#\n((\"\"\"#'\\"

theorem Text.passages_placed_unruly :
    unruly.passages = [⟨.comment, 0, 3⟩, ⟨.literal, 6, 12⟩, ⟨.literal, 15, 21⟩] ∧
    unruly.length = 21 ∧
      (⟨0, 3⟩ : Span).IsComment unruly ∧ (⟨6, 12⟩ : Span).IsLiteral unruly ∧
      (⟨15, 21⟩ : Span).IsLiteral unruly := by
  have hpassages : unruly.passages = [⟨.comment, 0, 3⟩, ⟨.literal, 6, 12⟩, ⟨.literal, 15, 21⟩] := by
    decide +kernel
  obtain ⟨-, -, -, -, -, hcomment, hliteral⟩ := Text.passages_placed unruly
  rw [hpassages] at hcomment hliteral
  exact ⟨hpassages, rfl, hcomment ⟨.comment, 0, 3⟩ (by simp) rfl,
    hliteral ⟨.literal, 6, 12⟩ (by simp) (by decide),
    hliteral ⟨.literal, 15, 21⟩ (by simp) (by decide)⟩

end Declutter
