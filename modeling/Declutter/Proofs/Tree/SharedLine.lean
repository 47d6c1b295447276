import Declutter.Proofs.Comment.Standing
import Declutter.Proofs.Removal
import Declutter.Proofs.Tree.Refusal
/-!
Statements that share a line. A `StatementLine` is such a line in its text: what is before its first
statement, the statements with a semicolon between any two neighbours, and what is left of the line
behind them. If some of the statements are deleted, the others are left as they were, with one
semicolon between any two of them; if all of them are, an indented line goes as a whole
(`StatementLine.exists_deletions`).

Statements that go are deleted run by run. The first run of a line takes the separator behind it,
every other run the one before it; each run sees the line as it was. So what a run leaves is said of
the text from some offset on (`Edit.Deletes`), and an induction over the statements goes from one
run to the next.
-/

set_option autoImplicit false
set_option relaxedAutoImplicit false

namespace Declutter

open scoped List

/-! ### Parts of a line -/

namespace Text

/-- The text of a statement: code at both ends, and no comment. -/
structure IsStatement (t : Text) : Prop where
  first : ∃ u, t.head? = some u ∧ u.isSolid = true ∧ u ≠ CodeUnit.ofChar '#'
  last : ∃ u, t.getLast? = some u ∧ u.isSolid = true

/-- Spaces and tabs. -/
def IsPadding (t : Text) : Prop := ∀ u ∈ t, u.isPadding = true

/-- One semicolon with padding around it. -/
inductive IsSeparator : Text → Prop
  | mk {before after : Text} (hbefore : before.IsPadding) (hafter : after.IsPadding) :
      IsSeparator (before ++ CodeUnit.ofChar ';' :: after)

/-- What can be before the first statement of a line: blanks, or a header that ends in a colon. -/
inductive IsLead : Text → Prop
  | indent {blanks : Text} (line : blanks.IsOnLine) (blank : blanks.isBlank = true) : IsLead blanks
  | header {code padding : Text} (line : code.IsOnLine) (hpadding : padding.IsPadding) :
      IsLead (code ++ CodeUnit.ofChar ':' :: padding)

/-- A comment on its line, or nothing. -/
inductive IsRemark : Text → Prop
  | none : IsRemark []
  | comment {body : Text} (line : body.IsOnLine) : IsRemark (CodeUnit.ofChar '#' :: body)

/-- What can be behind the last statement of a line: a semicolon, a comment, both or neither. -/
inductive IsTail : Text → Prop
  | plain {padding remark : Text} (hpadding : padding.IsPadding) (hremark : remark.IsRemark) :
      IsTail (padding ++ remark)
  | semicolon {separator remark : Text} (hseparator : separator.IsSeparator)
      (hremark : remark.IsRemark) :
      IsTail (separator ++ remark)

variable {t before after : Text}

instance (t : Text) : Decidable t.IsPadding := List.decidableBAll _ t

theorem isStatement_iff : t.IsStatement ↔
    t.head?.any (fun u ↦ u.isSolid && u != CodeUnit.ofChar '#') = true ∧
    t.getLast?.any CodeUnit.isSolid = true := by
  simp only [Option.any_eq_true, Bool.and_eq_true, bne_iff_ne]
  exact ⟨fun h ↦ ⟨h.first, h.last⟩, fun h ↦ ⟨h.1, h.2⟩⟩

instance (t : Text) : Decidable t.IsStatement := decidable_of_iff _ isStatement_iff.symm

theorem IsPadding.isOnLine (h : t.IsPadding) : t.IsOnLine := by
  intro u hu
  have hpadding := h u hu
  rw [CodeUnit.isPadding, Bool.or_eq_true, beq_iff_eq, beq_iff_eq] at hpadding
  rcases hpadding with rfl | rfl <;> rfl

theorem IsPadding.dropWhile_append (h : t.IsPadding)
    (hafter : ∀ u ∈ after.head?, u.isPadding = false) :
    (t ++ after).dropWhile CodeUnit.isPadding = after :=
  (Lexeme.takeWhile_append_of_head h hafter).2

theorem IsSeparator.isOnLine (h : t.IsSeparator) : t.IsOnLine := by
  cases h with
  | mk hbefore hafter =>
    exact List.forall_mem_append.mpr
      ⟨hbefore.isOnLine, List.forall_mem_cons.mpr ⟨rfl, hafter.isOnLine⟩⟩

theorem IsSeparator.reverse (h : t.IsSeparator) : Text.IsSeparator t.reverse := by
  cases h with
  | @mk before after hbefore hafter =>
    have hreverse : (before ++ CodeUnit.ofChar ';' :: after).reverse =
        after.reverse ++ CodeUnit.ofChar ';' :: before.reverse := by simp
    rw [hreverse]
    exact .mk (fun u hu ↦ hafter u (List.mem_reverse.mp hu)) fun u hu ↦
      hbefore u (List.mem_reverse.mp hu)

theorem IsLead.isOnLine (h : t.IsLead) : t.IsOnLine := by
  cases h with
  | indent line => exact line
  | header line hpadding =>
    exact List.forall_mem_append.mpr ⟨line, List.forall_mem_cons.mpr ⟨rfl, hpadding.isOnLine⟩⟩

theorem IsRemark.isOnLine (h : t.IsRemark) : t.IsOnLine := by
  cases h with
  | none => simp [IsOnLine]
  | comment line => exact List.forall_mem_cons.mpr ⟨rfl, line⟩

theorem IsTail.isOnLine (h : t.IsTail) : t.IsOnLine := by
  cases h with
  | plain hpadding hremark => exact List.forall_mem_append.mpr ⟨hpadding.isOnLine, hremark.isOnLine⟩
  | semicolon hseparator hremark =>
    exact List.forall_mem_append.mpr ⟨hseparator.isOnLine, hremark.isOnLine⟩

theorem IsStatement.ne_nil (h : t.IsStatement) : t ≠ [] := by
  rintro rfl
  obtain ⟨u, hu, -⟩ := h.first
  exact nomatch hu

/-- The text ends in a unit that is not blank. -/
def EndsInCode (t : Text) : Prop := ∃ u, t.getLast? = some u ∧ u.isBlank = false

theorem IsStatement.endsInCode (h : t.IsStatement) (before : Text) : EndsInCode (before ++ t) := by
  obtain ⟨u, hu, hsolid⟩ := h.last
  refine ⟨u, by rw [List.getLast?_append, hu, Option.some_or], ?_⟩
  rw [CodeUnit.isSolid, Bool.and_eq_true, Bool.not_eq_true'] at hsolid
  exact hsolid.1

/-- What starts like a statement holds code, and no padding first. -/
theorem IsStatement.of_head? (h : t.IsStatement) (hhead : after.head? = t.head?) :
    Edit.holdsNoCode after = false ∧ ∀ u ∈ after.head?, u.isPadding = false := by
  obtain ⟨u, hu, hsolid, hsign⟩ := h.first
  obtain ⟨rest, rfl⟩ := List.head?_eq_some_iff.mp (hhead.trans hu)
  have hblank : ¬ u.isBlank = true := fun hblank ↦ by simp [CodeUnit.isSolid, hblank] at hsolid
  constructor
  · rw [Edit.holdsNoCode, trimStart, List.dropWhile_cons_of_neg hblank]
    exact beq_eq_false_iff_ne.mpr hsign
  · intro v hv
    obtain rfl := Option.some.inj hv
    exact eq_false_of_ne_true fun hpadding ↦ hblank (CodeUnit.isBlank_of_isPadding hpadding)

/-- The first line of a statement and of what comes after it starts like the statement. -/
theorem IsStatement.exists_line (h : t.IsStatement) (after : Text) :
    ∃ part following : Text, t ++ after = part ++ following ∧ part.IsOnLine ∧
    following.StartsAfterLine ∧
      part.head? = t.head? := by
  obtain ⟨part, following, hcut, hpart, hfollowing, -⟩ := exists_lineEnd (t ++ after) 0
  rw [List.drop_zero] at hcut
  refine ⟨part, following, hcut, hpart, hfollowing, ?_⟩
  obtain ⟨u, hu, hsolid, -⟩ := h.first
  have hhead := congrArg List.head? hcut
  rw [List.head?_append, hu, Option.some_or] at hhead
  rw [hu, hhead]
  cases part with
  | cons v part => rfl
  | nil =>
    have hnewline := hfollowing u hhead.symm
    rw [CodeUnit.isSolid, CodeUnit.isBlank_of_isNewline hnewline] at hsolid
    exact Bool.noConfusion hsolid

end Text

namespace Edit

open Text

variable {before after separator : Text}

/-! ### The scans for a separator -/

theorem afterSeparator?_append (h : separator.IsSeparator)
    (hafter : ∀ u ∈ after.head?, u.isPadding = false) :
    afterSeparator? (separator ++ after) = some after := by
  cases h with
  | @mk padding₁ padding₂ h₁ h₂ =>
    have hsemicolon : ∀ u ∈ (CodeUnit.ofChar ';' :: (padding₂ ++ after)).head?,
        u.isPadding = false := by simp; decide
    rw [afterSeparator?, List.append_assoc, List.cons_append, h₁.dropWhile_append hsemicolon]
    exact congrArg some (h₂.dropWhile_append hafter)

theorem afterSeparator?_eq_none {padding : Text} (h : padding.IsPadding)
    (hafter : ∀ u ∈ after.head?, u.isPadding = false ∧ u ≠ CodeUnit.ofChar ';') :
    afterSeparator? (padding ++ after) = none := by
  rw [afterSeparator?, h.dropWhile_append fun u hu ↦ (hafter u hu).1]
  cases after with
  | nil => rfl
  | cons u rest => exact if_neg (hafter u rfl).2

theorem beforeSeparator?_append (h : separator.IsSeparator)
    (hbefore : ∀ u ∈ before.getLast?, u.isPadding = false) :
    beforeSeparator? (before ++ separator) = some before := by
  have hreverse : afterSeparator? (separator.reverse ++ before.reverse) = some before.reverse :=
    afterSeparator?_append h.reverse (by simpa using hbefore)
  rw [beforeSeparator?, List.reverse_append, hreverse, Option.map_some, List.reverse_reverse]

theorem beforeSeparator?_header (code : Text) {padding : Text} (h : padding.IsPadding) :
    beforeSeparator? (code ++ CodeUnit.ofChar ':' :: padding) = none := by
  have hcolon : afterSeparator? (padding.reverse ++ CodeUnit.ofChar ':' :: code.reverse) = none :=
    afterSeparator?_eq_none (fun u hu ↦ h u (List.mem_reverse.mp hu)) (by simp; decide)
  rw [beforeSeparator?, List.reverse_append, List.reverse_cons, List.append_assoc,
    List.singleton_append, hcolon, Option.map_none]

/-- Before the first statement of a line are only blanks, or there is no separator. -/
theorem isBlank_or_of_isLead {lead : Text} (h : lead.IsLead) :
    lead.isBlank = true ∨ ¬ lead.isBlank = true ∧ beforeSeparator? lead = none := by
  cases h with
  | indent _ blank => exact .inl blank
  | @header code padding _ hpadding =>
    refine .inr ⟨fun hblank ↦ ?_, beforeSeparator?_header code hpadding⟩
    have hcolon :=
      List.all_eq_true.mp hblank (CodeUnit.ofChar ':') (List.mem_append_right _ List.mem_cons_self)
    exact Bool.noConfusion hcolon

theorem isSeparator_of_isSeparator (h : separator.IsSeparator) : isSeparator separator = true := by
  have hnil : afterSeparator? (separator ++ []) = some [] := afterSeparator?_append h (by simp)
  rw [List.append_nil] at hnil
  rw [isSeparator, hnil]
  rfl

/-- No code is behind the last statement of a line, whatever ends the line. -/
theorem holdsNoCode_tail {tail blanks : Text} (h : tail.IsTail)
    (hblanks : blanks = [] ∨ blanks = [13]) :
    holdsNoCode ((afterSeparator? (tail ++ blanks)).getD (tail ++ blanks)) = true := by
  have hremark : ∀ remark : Text, remark.IsRemark → holdsNoCode (remark ++ blanks) = true ∧
      ∀ u ∈ (remark ++ blanks).head?, u.isPadding = false ∧ u ≠ CodeUnit.ofChar ';' := by
    rintro remark (_ | line)
    · rcases hblanks with rfl | rfl
      · exact ⟨rfl, by simp⟩
      · exact ⟨rfl, by simp; decide⟩
    · exact ⟨rfl, by simp; decide⟩
  cases h with
  | @plain padding remark hpadding hremark' =>
    obtain ⟨hcode, hhead⟩ := hremark remark hremark'
    rw [List.append_assoc, afterSeparator?_eq_none hpadding hhead, Option.getD_none,
      holdsNoCode, trimStart, List.dropWhile_append_of_pos fun u hu ↦
        CodeUnit.isBlank_of_isPadding (hpadding u hu)]
    exact hcode
  | semicolon hseparator hremark' =>
    obtain ⟨hcode, hhead⟩ := hremark _ hremark'
    rw [List.append_assoc, afterSeparator?_append hseparator fun u hu ↦ (hhead u hu).1]
    exact hcode

/-! ### The deletion of a run -/

/-- A run that is not the first on its line takes the separator before it. -/
theorem deleteStatement_behind (statement after : Text) (hbefore : before.EndsInCode)
    (h : separator.IsSeparator) :
    deleteStatement (before ++ (separator ++ (statement ++ after)))
        ⟨(before ++ separator).length, (before ++ separator ++ statement).length⟩ =
      .ok (.deletion before.length (before ++ separator ++ statement).length) := by
  obtain ⟨lines, part, rfl, hlines, hpart⟩ := exists_cut_lastLine before
  obtain ⟨u, hlast, hnot⟩ := exists_getLast?_of_cut hlines hbefore
  have honLine : Text.IsOnLine (part ++ separator) := List.forall_mem_append.mpr ⟨hpart, h.isOnLine⟩
  have hstart := lineStart_append (statement ++ after) hlines honLine
  have hslice := slice_append lines (part ++ separator) (statement ++ after)
  have hnotBlank : ¬ Text.isBlank (part ++ separator) = true := fun hblank ↦
    ne_true_of_eq_false hnot
      (List.all_eq_true.mp hblank u (List.mem_append_left _ (List.mem_of_getLast? hlast)))
  have hpreceding : beforeSeparator? (part ++ separator) = some part := by
    refine beforeSeparator?_append h fun v hv ↦ ?_
    obtain rfl := Option.some.inj (hlast.symm.trans hv)
    exact eq_false_of_ne_true fun hpadding ↦
      ne_true_of_eq_false hnot (CodeUnit.isBlank_of_isPadding hpadding)
  simp only [List.append_assoc, List.length_append, ← Nat.add_assoc] at hstart hslice ⊢
  simp only [deleteStatement, hstart, hslice, if_neg hnotBlank, hpreceding]

/-- The first run of a line takes the separator behind it, if a statement stays on the line. -/
theorem deleteStatement_ahead {lead next : Text} (statement after : Text)
    (hbefore : before.EndsLine) (hlead : lead.IsLead) (h : separator.IsSeparator)
    (hnext : next.IsStatement) :
    deleteStatement (before ++ (lead ++ (statement ++ (separator ++ (next ++ after)))))
        ⟨(before ++ lead).length, (before ++ lead ++ statement).length⟩ =
      .ok
        (.deletion (before ++ lead).length (before ++ lead ++ statement ++ separator).length) := by
  obtain ⟨part, following, hcut, hpart, hfollowing, hhead⟩ := hnext.exists_line after
  obtain ⟨hcode, hpadding⟩ := hnext.of_head? hhead
  have hafter := afterSeparator?_append h hpadding
  have hline : Text.IsOnLine (separator ++ part) := List.forall_mem_append.mpr ⟨h.isOnLine, hpart⟩
  have hstart :=
    lineStart_append (statement ++ (separator ++ (part ++ following))) hbefore hlead.isOnLine
  have hsliceBefore := slice_append before lead (statement ++ (separator ++ (part ++ following)))
  have hstop := lineEnd_append (before ++ lead ++ statement) hline hfollowing
  have hsliceAfter := slice_append (before ++ lead ++ statement) (separator ++ part) following
  have hlength : separator.length + part.length - part.length = separator.length :=
    Nat.add_sub_cancel _ _
  rw [hcut]
  simp only [List.append_assoc, List.length_append, ← Nat.add_assoc]
    at hstart hsliceBefore hstop hsliceAfter ⊢
  simp only [deleteStatement, hstart, hstop, hsliceBefore, hsliceAfter, hafter, hcode,
    List.length_append]
  rcases isBlank_or_of_isLead hlead with hblank | ⟨hnotBlank, hnone⟩
  · simp only [if_pos hblank, Bool.false_eq_true, if_false, hlength]
  · simp only [if_neg hnotBlank, hnone, hlength]

/-! ### What deletions leave -/

/-- The runs can be deleted, and what that leaves of the text from the offset `i` on is `out`. -/
def Deletes (t : Text) (i : Nat) (runs : List Span) (out : Text) : Prop :=
  ∃ edits, runs.mapM (deleteStatement t) = .ok edits ∧
    (∀ e ∈ edits, (i : Int) ≤ e.start ∧ e.Fits t.length) ∧
    (edits.Pairwise fun a b ↦ a.stop ≤ b.start) ∧ weave t i edits = out

namespace Deletes

variable {t out : Text} {a b : Nat} {runs : List Span} {r : Span}

theorem nil (t : Text) (i : Nat) : Deletes t i [] (t.drop i) := ⟨[], rfl, by simp, .nil, rfl⟩

/-- Up to the first run the text stays as it is. -/
theorem skip {before part : Text} (after : Text) (h : Deletes t (before ++ part).length runs out)
    (ht : t = before ++ (part ++ after)) : Deletes t before.length runs (part ++ out) := by
  obtain ⟨edits, hedits, hinside, hordered, hweave⟩ := h
  have hpart := slice_append before part after
  rw [← ht, ← List.length_append] at hpart
  have hle : before.length ≤ (before ++ part).length := by simp
  have hlength : (before ++ part).length ≤ t.length := by simp [ht]
  refine ⟨edits, hedits, fun e he ↦ ⟨?_, (hinside e he).2⟩, hordered, ?_⟩
  · have := (hinside e he).1
    omega
  · rw [weave_of_le hle (fun e he ↦ (hinside e he).1) hlength, hweave, hpart]

theorem skip_all {part : Text} (after : Text) (h : Deletes t part.length runs out)
    (ht : t = part ++ after) :
    Deletes t 0 runs (part ++ out) := by
  rw [← List.nil_append part] at h
  exact h.skip after ht

theorem cons (h : Deletes t b runs out) (hr : deleteStatement t r = .ok (.deletion a b))
    (hab : a < b) (hb : b ≤ t.length) : Deletes t a (r :: runs) out := by
  obtain ⟨edits, hedits, hinside, hordered, hweave⟩ := h
  have hfits : (deletion a b).Fits t.length :=
    ⟨Int.natCast_nonneg a, Int.ofNat_lt.mpr hab, Int.ofNat_le.mpr hb⟩
  refine ⟨deletion a b :: edits, ?_,
    List.forall_mem_cons.mpr ⟨⟨Int.le_refl _, hfits⟩, fun e he ↦ ⟨?_, (hinside e he).2⟩⟩,
    List.pairwise_cons.mpr ⟨fun e he ↦ (hinside e he).1, hordered⟩, ?_⟩
  · rw [List.mapM_cons, hr, hedits]
    rfl
  · have := (hinside e he).1
    omega
  · have hnil : t.slice a a = [] :=
      List.length_eq_zero_iff.mp (by rw [length_slice (hab.le.trans hb), Nat.sub_self])
    rw [weave, deletion, Int.toNat_natCast, Int.toNat_natCast, hweave, hnil]
    rfl

theorem applyAll (h : Deletes t 0 runs out) :
    ∃ edits, runs.mapM (deleteStatement t) = .ok edits ∧ Edit.applyAll edits t = .ok out := by
  obtain ⟨edits, hedits, hinside, hordered, hweave⟩ := h
  exact ⟨edits, hedits, hweave ▸ applyAll_eq_weave (fun e he ↦ (hinside e he).2) hordered⟩

end Deletes

/-- One edit that fits a text can be carried out. -/
theorem applyAll_singleton {t : Text} {e : Edit} (h : e.Fits t.length) :
    Edit.applyAll [e] t = .ok (e.splice t) := by
  have hfault : firstFault t.length none [e] = none :=
    firstFault_eq_none (by simpa using h) (by simp) (List.pairwise_singleton _ e)
  rw [Edit.applyAll, List.mergeSort_singleton, hfault]
  rfl

theorem fits_deleteLines (before : Text) {lines : Text} (following : Text) (h : lines ≠ []) :
    (deleteLines (before ++ (lines ++ following)) before.length (before.length + lines.length)).Fits
      (before ++ (lines ++ following)).length := by
  have hpos := List.length_pos_iff.mpr h
  rw [deleteLines]
  refine ⟨Int.natCast_nonneg _, Int.ofNat_lt.mpr ?_, Int.ofNat_le.mpr ?_⟩
  · split_ifs <;> omega
  · simp only [List.length_append]
    split_ifs <;> omega

/-- The runs of spans that are in order. -/
def runsInOrder (t : Text) : List Span → List Span
  | [] => []
  | first :: rest => joinRuns t first rest

theorem runsOf_eq_runsInOrder (t : Text) (spans : List Span) :
    runsOf t spans = runsInOrder t (Span.sortByStart spans) := by
  unfold runsOf runsInOrder
  split <;> simp_all

end Edit

/-! ### Statements on a line -/

/-- A statement on a line: what is between it and the code before it on the line, its text, and
whether it goes. -/
structure Piece where
  gap : Text
  text : Text
  goes : Bool
deriving DecidableEq, Repr

namespace Piece

/-- The statement with what is before it. -/
def whole (p : Piece) : Text := p.gap ++ p.text

/-- The statement comes after another one. -/
structure IsLater (p : Piece) : Prop where
  separator : p.gap.IsSeparator
  statement : p.text.IsStatement

/-- The spans of the statements that go, if they begin at an offset. -/
def goneFrom (start : Nat) : List Piece → List Span
  | [] => []
  | p :: ps =>
    if p.goes then
      ⟨start + p.gap.length, start + p.whole.length⟩ :: goneFrom (start + p.whole.length) ps
    else goneFrom (start + p.whole.length) ps

/-- The runs of the statements that go; `run?` is where the run in hand starts, if there is one. -/
def runsFrom (run? : Option Nat) (start : Nat) : List Piece → List Span
  | [] => (run?.map (⟨·, start⟩)).toList
  | p :: ps =>
    if p.goes then runsFrom (some (run?.getD (start + p.gap.length))) (start + p.whole.length) ps
    else (run?.map (⟨·, start⟩)).toList ++ runsFrom none (start + p.whole.length) ps

variable {ps : List Piece} {t after : Text}

theorem length_whole (p : Piece) : p.whole.length = p.gap.length + p.text.length :=
  List.length_append

theorem start_of_mem_goneFrom {start : Nat} {s : Span} (h : s ∈ goneFrom start ps) :
    start ≤ s.start ∧ s.start ≤ start + (ps.flatMap whole).length := by
  induction ps generalizing start with
  | nil => exact nomatch h
  | cons p ps ih =>
    have hwhole := p.length_whole
    have hlater : s ∈ goneFrom (start + p.whole.length) ps →
        start ≤ s.start ∧ s.start ≤ start + ((p :: ps).flatMap whole).length := by
      intro hs
      have hbounds := ih hs
      rw [List.flatMap_cons, List.length_append]
      omega
    rw [goneFrom] at h
    split_ifs at h
    · rcases List.mem_cons.mp h with rfl | h
      · simp only [List.flatMap_cons, List.length_append]
        omega
      · exact hlater h
    · exact hlater h

/-- The statements that go are in order. -/
theorem pairwise_goneFrom (h : ∀ p ∈ ps, p.text ≠ []) (start : Nat) :
    (goneFrom start ps).Pairwise fun a b ↦ a.start < b.start := by
  induction ps generalizing start with
  | nil => exact .nil
  | cons p ps ih =>
    rw [List.forall_mem_cons] at h
    have hpos := List.length_pos_iff.mpr h.1
    have hwhole := p.length_whole
    rw [goneFrom]
    split_ifs
    · refine List.pairwise_cons.mpr ⟨fun b hb ↦ ?_, ih h.2 _⟩
      have hstart := (start_of_mem_goneFrom hb).1
      dsimp only
      omega
    · exact ih h.2 _

/-- Between the end of a run and a statement that goes behind a statement that stays is more than a
separator. -/
theorem isSeparator_eq_false {before : Text} {p : Piece} {s : Span} (hp : p.text.IsStatement)
    (hs : s ∈ goneFrom (before ++ p.whole).length ps) :
    Edit.isSeparator
      ((before ++ (p.whole ++ (ps.flatMap whole ++ after))).slice before.length s.start) =
        false := by
  obtain ⟨u, hu, hsolid, -⟩ := hp.first
  obtain ⟨rest, htext⟩ := List.head?_eq_some_iff.mp hu
  have hbounds := start_of_mem_goneFrom hs
  refine eq_false_of_ne_true fun hseparator ↦ ?_
  refine Span.not_isSolid_of_isSeparator (k := (before ++ p.gap).length) ?_ hseparator ?_ ?_ ?_
  · simp only [List.length_append] at hbounds ⊢
    omega
  · simp
  · simp only [whole, htext, List.length_append, List.length_cons] at hbounds ⊢
    omega
  · refine Text.hasAt_eq_true.mpr ⟨u, ?_, hsolid⟩
    rw [whole, htext, List.append_assoc, ← List.append_assoc, List.getElem?_append_right le_rfl,
      Nat.sub_self]
    rfl

/-- Joining the statements that go gives the runs of the line. -/
theorem joinRuns_goneFrom (before : Text) (h : ∀ p ∈ ps, p.IsLater)
    (ht : t = before ++ (ps.flatMap whole ++ after)) :
    (∀ start, Edit.joinRuns t ⟨start, before.length⟩ (goneFrom before.length ps) =
        runsFrom (some start) before.length ps) ∧
      Edit.runsInOrder t (goneFrom before.length ps) = runsFrom none before.length ps := by
  induction ps generalizing before with
  | nil => exact ⟨fun _ ↦ rfl, rfl⟩
  | cons p ps ih =>
    rw [List.forall_mem_cons] at h
    have ht' : t = before ++ p.whole ++ (ps.flatMap whole ++ after) := by
      rw [ht, List.flatMap_cons]
      simp only [List.append_assoc]
    obtain ⟨hopen, hclosed⟩ := ih (before ++ p.whole) h.2 ht'
    rw [List.length_append] at hopen hclosed
    have hgap : t.slice before.length (before.length + p.gap.length) = p.gap := by
      rw [ht, List.flatMap_cons, whole]
      simp only [List.append_assoc]
      exact Text.slice_append _ _ _
    rw [goneFrom]
    by_cases hgoes : p.goes = true
    · simp only [runsFrom, if_pos hgoes, Option.getD_some, Option.getD_none]
      refine ⟨fun start ↦ ?_, hopen _⟩
      rw [Edit.joinRuns, hgap, if_pos (Edit.isSeparator_of_isSeparator h.1.separator), hopen]
    · simp only [runsFrom, if_neg hgoes]
      refine ⟨fun start ↦ ?_, hclosed⟩
      rw [← hclosed]
      cases hgone : goneFrom (before.length + p.whole.length) ps with
      | nil => rfl
      | cons s rest =>
        have hseparator : Edit.isSeparator (t.slice before.length s.start) = false := by
          rw [ht', List.append_assoc]
          refine isSeparator_eq_false h.1.statement ?_
          rw [List.length_append, hgone]
          exact List.mem_cons_self
        rw [Edit.joinRuns, hseparator]
        rfl

/-! ### What is left of a line -/

/-- The statements that stay. -/
def survivors (ps : List Piece) : List Piece := ps.filter (!·.goes)

/-- Statements on a line, without what is before the first of them. -/
def joined : List Piece → Text
  | [] => []
  | p :: ps => p.text ++ ps.flatMap whole

theorem survivors_cons_of_goes {p : Piece} (hgoes : p.goes = true) (ps : List Piece) :
    survivors (p :: ps) = survivors ps := List.filter_cons_of_neg (by simp [hgoes])

theorem survivors_cons_of_not {p : Piece} (hgoes : ¬ p.goes = true) (ps : List Piece) :
    survivors (p :: ps) = p :: survivors ps := List.filter_cons_of_pos (by simp [hgoes])

/-- Behind code, the statements that stay are left with what is before each of them. With a run in
hand, this is said of the text from the separator before the run on. -/
theorem deletes_runsFrom (h : ∀ p ∈ ps, p.IsLater) :
    (∀ before : Text, t = before ++ (ps.flatMap whole ++ after) → before.EndsInCode →
      Edit.Deletes t before.length (runsFrom none before.length ps)
        ((survivors ps).flatMap whole ++ after)) ∧
    ∀ before separator gone : Text,
    t = before ++ (separator ++ (gone ++ (ps.flatMap whole ++ after))) →
      before.EndsInCode → separator.IsSeparator → gone ≠ [] →
      Edit.Deletes t before.length
        (runsFrom (some (before ++ separator).length) (before ++ separator ++ gone).length ps)
        ((survivors ps).flatMap whole ++ after) := by
  induction ps with
  | nil =>
    constructor
    · rintro before rfl -
      have hnil := Edit.Deletes.nil (before ++ after) before.length
      rwa [List.drop_left] at hnil
    · rintro before separator gone rfl hcode hseparator hgone
      have hrun := Edit.deleteStatement_behind gone after hcode hseparator
      have hnil :=
        Edit.Deletes.nil (before ++ (separator ++ (gone ++ after)))
          (before ++ separator ++ gone).length
      have hpos := List.length_pos_iff.mpr hgone
      have hrest := hnil.cons hrun (by simp; omega) (by simp)
      simpa [runsFrom, survivors] using hrest
  | cons p ps ih =>
    rw [List.forall_mem_cons] at h
    obtain ⟨hclosed, hopen⟩ := ih h.2
    have hwhole : p.whole ≠ [] := fun hnil ↦ h.1.statement.ne_nil (List.append_eq_nil_iff.mp hnil).2
    by_cases hgoes : p.goes = true
    · simp only [runsFrom, if_pos hgoes, survivors_cons_of_goes hgoes, Option.getD_none,
        Option.getD_some]
      constructor
      · intro before ht hcode
        have hrest :=
          hopen before p.gap p.text (by simpa [whole] using ht) hcode h.1.separator
            h.1.statement.ne_nil
        simpa [whole] using hrest
      · intro before separator gone ht hcode hseparator hgone
        have hrest :=
          hopen before separator (gone ++ p.whole) (by simpa using ht) hcode hseparator
            (by simp [hgone])
        simpa [Nat.add_assoc] using hrest
    · have hnext : ∀ before : Text, Text.EndsInCode (before ++ p.whole) := fun before ↦ by
        rw [whole, ← List.append_assoc]
        exact h.1.statement.endsInCode _
      simp only [runsFrom, if_neg hgoes, survivors_cons_of_not hgoes, List.flatMap_cons,
        List.append_assoc, ← List.length_append]
      constructor
      · intro before ht _
        have hrest := hclosed (before ++ p.whole) (by simpa using ht) (hnext before)
        exact hrest.skip _ ht
      · intro before separator gone ht hcode hseparator hgone
        have hrun :=
          Edit.deleteStatement_behind gone (p.whole ++ (ps.flatMap whole ++ after)) hcode hseparator
        have hrest := hclosed (before ++ separator ++ gone ++ p.whole) (by simpa using ht) (hnext _)
        have hskip := hrest.skip (ps.flatMap whole ++ after) (by simpa using ht)
        have hpos := List.length_pos_iff.mpr hgone
        have hdeletes := hskip.cons (ht ▸ hrun) (by simp; omega) (by simp [ht])
        simpa using hdeletes

/-- The first run of a line that does not go as a whole leaves the statements that stay, the first
of them without the separator before it. -/
theorem deletes_first {before lead : Text} (h : ∀ p ∈ ps, p.IsLater) (hbefore : before.EndsLine)
    (hlead : lead.IsLead) (hstays : survivors ps ≠ []) (gone : Text) (hgone : gone ≠ [])
    (ht : t = before ++ (lead ++ (gone ++ (ps.flatMap whole ++ after)))) :
    Edit.Deletes t (before ++ lead).length
      (runsFrom (some (before ++ lead).length) (before ++ lead ++ gone).length ps)
        (joined (survivors ps) ++ after) := by
  induction ps generalizing gone with
  | nil => exact absurd rfl hstays
  | cons p ps ih =>
    rw [List.forall_mem_cons] at h
    by_cases hgoes : p.goes = true
    · rw [survivors_cons_of_goes hgoes] at hstays ⊢
      have hrest := ih h.2 hstays (gone ++ p.whole) (by simp [hgone]) (by simpa using ht)
      simp only [runsFrom, if_pos hgoes, Option.getD_some]
      simpa [Nat.add_assoc] using hrest
    · have hcut : t = before ++
          (lead ++ (gone ++ (p.gap ++ (p.text ++ (ps.flatMap whole ++ after))))) := by
        simpa [whole] using ht
      have hrun :=
        Edit.deleteStatement_ahead gone (ps.flatMap whole ++ after) hbefore hlead h.1.separator
          h.1.statement
      have hrest :=
        (deletes_runsFrom h.2).1 (before ++ lead ++ gone ++ p.gap ++ p.text) (by simpa using hcut)
          (h.1.statement.endsInCode _)
      have hskip := hrest.skip (ps.flatMap whole ++ after) (by simpa using hcut)
      have hpos := List.length_pos_iff.mpr hgone
      have hdeletes := hskip.cons (hcut ▸ hrun) (by simp; omega) (by simp [hcut])
      rw [survivors_cons_of_not hgoes, joined]
      simp only [runsFrom, if_neg hgoes]
      simpa [whole, Nat.add_assoc] using hdeletes

/-- If no statement stays, one run goes to the end of the last one. -/
theorem runsFrom_of_survivors_eq_nil (h : survivors ps = []) (run start : Nat) :
    runsFrom (some run) start ps = [⟨run, start + (ps.flatMap whole).length⟩] := by
  induction ps generalizing start with
  | nil => rfl
  | cons p ps ih =>
    by_cases hgoes : p.goes = true
    · rw [survivors_cons_of_goes hgoes] at h
      rw [runsFrom, if_pos hgoes, Option.getD_some, ih h, List.flatMap_cons, List.length_append,
        Nat.add_assoc]
    · rw [survivors_cons_of_not hgoes] at h
      exact absurd h (List.cons_ne_nil p _)

end Piece

/-- The unit before the line feed of a line belongs to the line as a blank. -/
theorem Text.IsEnding.exists_cut {ending rest : Text} (h : ending.IsEnding rest) :
    ∃ blanks following : Text, ending ++ rest = blanks ++ following ∧
    (blanks = [] ∨ blanks = [13]) ∧
      following.StartsAfterLine ∧ following.tail = rest := by
  have hfeed : Text.StartsAfterLine (10 :: rest) := fun u hu ↦ by
    obtain rfl := Option.some.inj hu
    rfl
  rcases h with rfl | rfl | ⟨rfl, rfl⟩
  · exact ⟨[], 10 :: rest, rfl, .inl rfl, hfeed, rfl⟩
  · exact ⟨[13], 10 :: rest, rfl, .inr rfl, hfeed, rfl⟩
  · exact ⟨[], [], rfl, .inl rfl, (fun _ hu ↦ nomatch hu), rfl⟩

/-- A line with statements on it, in its text: the lines before it, the statements, of which the
first comes after blanks or a header and every other one after a semicolon, what is behind them, the
ending of the line and the text after that. A statement can go over several lines. -/
structure StatementLine where
  before : Text
  first : Piece
  others : List Piece
  tail : Text
  ending : Text
  rest : Text
  endsLine : before.EndsLine
  isLead : first.gap.IsLead
  isStatement : first.text.IsStatement
  isLater : ∀ p ∈ others, p.IsLater
  isTail : tail.IsTail
  isEnding : ending.IsEnding rest

namespace StatementLine

variable (l : StatementLine)

/-- The statements of the line. -/
def pieces : List Piece := l.first :: l.others

/-- The text after the statements. -/
def after : Text := l.tail ++ (l.ending ++ l.rest)

/-- The text that holds the line. -/
def source : Text := l.before ++ (l.pieces.flatMap Piece.whole ++ l.after)

/-- The spans of the statements that go. -/
def gone : List Span := Piece.goneFrom l.before.length l.pieces

/-- Of the statements of a line, those that stay and are not the first of them still have a
separator before them. -/
theorem isSeparator_of_mem_survivors :
    ∀ p ∈ (Piece.survivors l.pieces).tail, p.gap.IsSeparator := by
  intro p hp
  have hsublist : (Piece.survivors l.pieces).tail.Sublist l.others :=
    (List.filter_sublist (l := l.pieces)).tail
  exact (l.isLater p (hsublist.mem hp)).separator

/-- The runs of the line are found by going through its statements. -/
theorem runsOf_eq {excised : List Span} (h : excised ~ l.gone) :
    Edit.runsOf l.source excised = Piece.runsFrom none l.before.length l.pieces := by
  have hne : ∀ p ∈ l.pieces, p.text ≠ [] :=
    List.forall_mem_cons.mpr ⟨l.isStatement.ne_nil, fun p hp ↦ (l.isLater p hp).statement.ne_nil⟩
  have hcut : l.source = l.before ++ l.first.whole ++
      (l.others.flatMap Piece.whole ++ l.after) := by
    simp [source, pieces]
  obtain ⟨hopen, hclosed⟩ := Piece.joinRuns_goneFrom _ l.isLater hcut
  rw [Edit.runsOf_eq_runsInOrder, Span.sortByStart_eq h (Piece.pairwise_goneFrom hne _), gone,
    pieces, Piece.goneFrom, Piece.runsFrom]
  rw [List.length_append] at hopen hclosed
  by_cases hgoes : l.first.goes = true
  · rw [if_pos hgoes, if_pos hgoes]
    exact hopen _
  · rw [if_neg hgoes, if_neg hgoes]
    exact hclosed

/-- If a statement stays, the line stays with the statements that do. -/
theorem deletes_of_survivors (h : Piece.survivors l.pieces ≠ []) :
    Edit.Deletes l.source 0 (Piece.runsFrom none l.before.length l.pieces)
      (l.before ++ (l.first.gap ++ (Piece.joined (Piece.survivors l.pieces) ++ l.after))) := by
  have hcut : l.source = (l.before ++ l.first.gap) ++
      (l.first.text ++ (l.others.flatMap Piece.whole ++ l.after)) := by
    simp [source, pieces, Piece.whole]
  by_cases hgoes : l.first.goes = true
  · rw [pieces, Piece.survivors_cons_of_goes hgoes] at h ⊢
    have hfirst :=
      Piece.deletes_first l.isLater l.endsLine l.isLead h l.first.text l.isStatement.ne_nil
        (by simpa using hcut)
    have hskip := hfirst.skip_all _ hcut
    simp only [Piece.runsFrom, if_pos hgoes]
    simpa [Piece.whole] using hskip
  · have hlater :=
      (Piece.deletes_runsFrom l.isLater).1 (l.before ++ l.first.gap ++ l.first.text)
        (by simpa using hcut) (l.isStatement.endsInCode _)
    have hskip := hlater.skip_all (l.others.flatMap Piece.whole ++ l.after) (by simpa using hcut)
    simp only [pieces, Piece.runsFrom, if_neg hgoes, Piece.survivors_cons_of_not hgoes,
      Piece.joined]
    simpa [Piece.whole] using hskip

/-- If all statements of a line go, they make one run. -/
theorem runsFrom_pieces (h : Piece.survivors l.pieces = []) :
    Piece.runsFrom none l.before.length l.pieces = [⟨l.before.length + l.first.gap.length,
      l.before.length + l.first.gap.length +
      (l.first.text ++ l.others.flatMap Piece.whole).length⟩] := by
  have hgoes : l.first.goes = true := by
    by_contra hnot
    rw [pieces, Piece.survivors_cons_of_not hnot] at h
    exact List.cons_ne_nil _ _ h
  rw [pieces, Piece.survivors_cons_of_goes hgoes] at h
  rw [pieces, Piece.runsFrom, if_pos hgoes, Piece.runsFrom_of_survivors_eq_nil h,
    List.length_append, Piece.length_whole]
  simp only [Option.getD_none, Nat.add_assoc]

/-- The run of all statements of a line can be deleted; if only blanks are before them, the line
goes. -/
theorem exists_edit_of_survivors (h : Piece.survivors l.pieces = []) :
    ∃ e, (Piece.runsFrom none l.before.length l.pieces).mapM (Edit.deleteStatement l.source) =
      .ok [e] ∧
      (l.first.gap.isBlank = true → Edit.applyAll [e] l.source = .ok (l.before ++ l.rest)) := by
  obtain ⟨blanks, following, hafter, hblanks, hfollowing, hrest⟩ := l.isEnding.exists_cut
  obtain ⟨statement, hstatement⟩ : ∃ statement,
      statement = l.first.text ++ l.others.flatMap Piece.whole := ⟨_, rfl⟩
  have hcut : l.source = l.before ++
      (l.first.gap ++ (statement ++ (l.tail ++ blanks ++ following))) := by
    simp [source, pieces, after, Piece.whole, hafter, hstatement]
  have hruns := l.runsFrom_pieces h
  rw [← hstatement] at hruns
  have hmapM : ∀ {e : Edit}, Edit.deleteStatement l.source ⟨l.before.length + l.first.gap.length,
        l.before.length + l.first.gap.length + statement.length⟩ = .ok e →
      (Piece.runsFrom none l.before.length l.pieces).mapM (Edit.deleteStatement l.source) =
        .ok [e] := fun he ↦ by
    rw [hruns, List.mapM_cons, he]
    rfl
  by_cases hblank : l.first.gap.isBlank = true
  · have htail : Text.IsOnLine (l.tail ++ blanks) :=
      List.forall_mem_append.mpr
        ⟨l.isTail.isOnLine, by rcases hblanks with rfl | rfl <;> simp [CodeUnit.isNewline]⟩
    have hedit := Edit.deleteStatement_alone statement l.endsLine l.isLead.isOnLine hblank htail
      (Edit.holdsNoCode_tail l.isTail hblanks) hfollowing
    have hne : l.first.gap ++ statement ++ (l.tail ++ blanks) ≠ [] := by
      simp [hstatement, l.isStatement.ne_nil]
    have hfits := Edit.fits_deleteLines l.before following hne
    have hsplice :=
      Edit.splice_deleteLines l.before (l.first.gap ++ statement ++ (l.tail ++ blanks)) following
    simp only [List.append_assoc] at hcut hedit hfits hsplice
    rw [← hcut] at hedit hfits hsplice
    refine ⟨_, hmapM hedit, fun _ ↦ ?_⟩
    rw [Edit.applyAll_singleton hfits, hsplice, hrest]
  · have hstart :=
      Text.lineStart_append (statement ++ (l.tail ++ blanks ++ following)) l.endsLine
        l.isLead.isOnLine
    have hslice :=
      Text.slice_append l.before l.first.gap (statement ++ (l.tail ++ blanks ++ following))
    rw [← hcut] at hstart hslice
    obtain ⟨e, he⟩ :=
      Edit.exists_deleteStatement (t := l.source)
        (s :=
          ⟨l.before.length + l.first.gap.length, l.before.length + l.first.gap.length +
            statement.length⟩) fun hline ↦ by
        rw [hstart, hslice] at hline
        exact absurd hline hblank
    exact ⟨e, hmapM he, fun hline ↦ absurd hline hblank⟩

end StatementLine

/-- Any of the statements on a line can be deleted, and their deletions can be carried out at once.
If some of the statements stay, so does the line: what is before its first statement is now before
the first one that stays, between any two that stay is one semicolon, and everything else is as it
was. If none stays on a line on which only blanks are before the statements, the line goes with its
ending, and nothing else does. -/
theorem StatementLine.exists_deletions (l : StatementLine) {excised : List Span}
    (h : excised ~ l.gone) :
    ∃ edits, (Edit.runsOf l.source excised).mapM (Edit.deleteStatement l.source) = .ok edits ∧
      (∀ p ∈ (Piece.survivors l.pieces).tail, p.gap.IsSeparator) ∧
      (Piece.survivors l.pieces ≠ [] → Edit.applyAll edits l.source =
        .ok (l.before ++ (l.first.gap ++ (Piece.joined (Piece.survivors l.pieces) ++ l.after)))) ∧
      (Piece.survivors l.pieces = [] → l.first.gap.isBlank = true →
        Edit.applyAll edits l.source = .ok (l.before ++ l.rest)) := by
  rw [l.runsOf_eq h]
  by_cases hsurvivors : Piece.survivors l.pieces = []
  · obtain ⟨e, he, hline⟩ := l.exists_edit_of_survivors hsurvivors
    exact ⟨[e], he, l.isSeparator_of_mem_survivors, fun hne ↦ absurd hsurvivors hne, fun _ ↦ hline⟩
  · obtain ⟨edits, hedits, happly⟩ := (l.deletes_of_survivors hsurvivors).applyAll
    exact ⟨edits, hedits, l.isSeparator_of_mem_survivors, fun _ ↦ happly,
      fun hnil ↦ absurd hnil hsurvivors⟩

/-- An indented line in which two statements, of which one goes over two lines, stay or not. -/
def StatementLine.specimen (stays : Bool) : StatementLine where
  before := Text.ofString "def f():" ++ [10]
  first := ⟨[9], "print(1)", true⟩
  others :=
    [⟨"; ", "x = (1,\n 2)", !stays⟩, ⟨" ;", "print(3)", true⟩, ⟨";", "print(4)", true⟩,
      ⟨"; ", "y", !stays⟩]
  tail := " ; # z"
  ending := [13, 10]
  rest := "z\n"
  endsLine := Text.endsLine_concat _
  isLead := .indent (List.forall_mem_singleton.mpr rfl) rfl
  isStatement := by decide
  isLater := by
    have hbehind : Text.IsSeparator "; " := @Text.IsSeparator.mk [] [32] (by decide) (by decide)
    have hbefore : Text.IsSeparator " ;" := @Text.IsSeparator.mk [32] [] (by decide) (by decide)
    have hnone : Text.IsSeparator ";" := @Text.IsSeparator.mk [] [] (by decide) (by decide)
    have hfirst : Text.IsStatement "x = (1,\n 2)" := by decide
    have hlast : Text.IsStatement "y" := by decide
    simp only [List.forall_mem_cons]
    exact ⟨⟨hbehind, hfirst⟩, ⟨hbefore, by decide⟩, ⟨hnone, by decide⟩, ⟨hbehind, hlast⟩, by simp⟩
  isTail :=
    @Text.IsTail.semicolon " ; " "# z" (@Text.IsSeparator.mk [32] [32] (by decide) (by decide))
      (@Text.IsRemark.comment [32, 122] (by simp [Text.IsOnLine, CodeUnit.isNewline]))
  isEnding := .inr (.inl rfl)

theorem StatementLine.exists_deletions_specimen :
    (∃ edits, (Edit.runsOf (specimen true).source [⟨42, 50⟩, ⟨10, 18⟩, ⟨33, 41⟩]).mapM
          (Edit.deleteStatement (specimen true).source) = .ok edits ∧
        Edit.applyAll edits (specimen true).source =
          .ok "def f():\n\tx = (1,\n 2); y ; # z\r\nz\n") ∧
      ∃ edits, (Edit.runsOf (specimen false).source (specimen false).gone).mapM
          (Edit.deleteStatement (specimen false).source) = .ok edits ∧
        Edit.applyAll edits (specimen false).source = .ok "def f():\nz\n" := by
  constructor
  · obtain ⟨edits, hedits, -, hline, -⟩ :=
      (specimen true).exists_deletions
        (by decide : [⟨42, 50⟩, ⟨10, 18⟩, ⟨33, 41⟩] ~ (specimen true).gone)
    exact ⟨edits, hedits, (hline (by decide)).trans (by decide)⟩
  · obtain ⟨edits, hedits, -, -, hline⟩ := (specimen false).exists_deletions (List.Perm.refl _)
    exact ⟨edits, hedits, (hline (by decide) (by decide)).trans (by decide)⟩

end Declutter
