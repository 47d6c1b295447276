import Declutter.Proofs.Edit
import Declutter.Proofs.Except
import Declutter.Proofs.Tree.Layout
import Declutter.Proofs.Tree.Places
/-!
Deleting some statements of a block. Statements between which only a separator stands are deleted
together, as one run. No statement that stays is inside a run (`Edit.IsRun`), and more than a
separator is between two runs (`Edit.pairwise_runsOf`). So the deletions of a block do not meet,
stay where the block is (`Edit.confined_deletions`), and leave alone what the statements that stay
occupy (`Edit.spares_occupied`).

Which edits a block and a construct have is said here for all that follows
(`Edit.exists_of_ofBlock`, `Edit.exists_of_ofConstruct`).
-/

set_option autoImplicit false
set_option relaxedAutoImplicit false

namespace Declutter

open scoped List

namespace Span

variable {t : Text} {a b s piece : Span} {i : Nat}

/-! ### Statements side by side -/

/-- Spans of two statements of one block, in either order. -/
def Beside (t : Text) (a b : Span) : Prop := Precedes t a b ∨ Precedes t b a

instance : Std.Symm (Beside t) := ⟨fun _ _ ↦ Or.symm⟩

/-- A part of the text that a statement occupies: nothing of its first line that it does not begin,
and nothing after it, unless it is the last code on its last line. -/
structure Occupies (t : Text) (s piece : Span) : Prop where
  start : t.lead s.start ≤ piece.start
  stop : piece.stop = s.stop ∨ t.closesLine s.stop = true ∧ piece.stop = t.nextLine s.stop

theorem Occupies.advances (h : Occupies t s piece) : t.Advances s.stop piece.stop := by
  rcases h.stop with hstop | ⟨hcloses, hstop⟩
  · rw [hstop]
    exact .stay
  · rw [hstop]
    exact .line hcloses

namespace Precedes

/-- What two statements of a block occupy does not meet. -/
theorem occupied_le {piece' : Span} (h : Precedes t a b) (ha : a.IsFenced t) (hb : b.IsFenced t)
    (hpiece : Occupies t a piece) (hpiece' : Occupies t b piece') : piece.stop ≤ piece'.start :=
  (h.advances_le ha hb hpiece.advances).trans hpiece'.start

/-- A deletion after a statement starts after what the statement occupies. -/
theorem occupied_le_retreats (h : Precedes t a b) (ha : a.IsFenced t) (hb : b.IsFenced t)
    (hpiece : Occupies t a piece) (hi : t.Retreats b.start i) : piece.stop ≤ i := by
  rcases hpiece.stop with hstop | ⟨hcloses, hstop⟩
  · rw [hstop]
    exact h.le_retreats ha hb hi
  · rw [hstop]
    exact (h.nextLine_le hb hcloses).trans hi.lineStart_le

end Precedes

end Span

/-! ### The part of a text that holds a block -/

/-- Offset `i` is the start of the text or comes after a solid unit. -/
def Text.IsFloor (t : Text) (i : Nat) : Prop := ∀ k, i = k + 1 → t.hasAt CodeUnit.isSolid k = true

namespace Text.IsFloor

variable {t : Text} {i j a : Nat}

theorem le_retreats (h : t.IsFloor i) (hij : i ≤ j) (ha : t.Retreats j a) : i ≤ a := by
  cases i with
  | zero => exact Nat.zero_le a
  | succ k => exact ha.lt hij (h k rfl)

theorem le_lead (h : t.IsFloor i) (hij : i ≤ j) : i ≤ t.lead j := by
  cases i with
  | zero => exact Nat.zero_le _
  | succ k => exact lt_lead hij (lt_length_of_hasAt (h k rfl)) (not_blank_of_isSolid (h k rfl))

end Text.IsFloor

/-- A part of the text around the lines of a statement, apart from what is before the statement. -/
structure Span.Encloses (t : Text) (part s : Span) : Prop where
  start : part.start ≤ s.start
  stop : t.nextLine s.stop ≤ part.stop

namespace Edit

variable {t : Text} {spans : List Span} {i j : Nat}

/-! ### Runs -/

theorem lt_of_isSeparator (h : isSeparator (t.slice i j) = true) : i < j := by
  by_contra hle
  have hnil : t.slice i j = [] := by
    rw [Text.slice, List.drop_eq_nil_iff, List.length_take]
    omega
  rw [hnil] at h
  exact Bool.noConfusion h

/-- A run: from the start of one of the spans to the stop of one of them, so that every statement
that is beside all of the spans comes before the run or after it. -/
inductive IsRun (t : Text) (spans : List Span) : Span → Prop where
  | mk {a b : Span} (first : a ∈ spans) (last : b ∈ spans) (lt : a.start < b.stop)
      (apart : ∀ s : Span, s.IsFenced t → (∀ x ∈ spans, s.Beside t x) → s.Precedes t a ∨
        b.Precedes t s) :
      IsRun t spans ⟨a.start, b.stop⟩

theorem IsRun.single {x : Span} (hx : x ∈ spans) (hfenced : x.IsFenced t) : IsRun t spans x :=
  .mk hx hx hfenced.lt fun _ _ hbeside ↦ hbeside x hx

/-- A span after a separator makes the run longer: no statement that stays fits between them. -/
theorem IsRun.join {r x : Span} (h : IsRun t spans r) (hx : x ∈ spans) (hfenced : x.IsFenced t)
    (hseparator : isSeparator (t.slice r.stop x.start) = true) :
    IsRun t spans ⟨r.start, x.stop⟩ := by
  have hlt := lt_of_isSeparator hseparator
  have hxlt := hfenced.lt
  cases h with
  | @mk a b first last lt apart =>
    dsimp only at hseparator hlt ⊢
    refine .mk (a := a) (b := x) first hx (by omega) fun s hs hbeside ↦
      (apart s hs hbeside).imp_right fun hbs ↦ ?_
    refine (hbeside x hx).resolve_left fun hsx ↦ ?_
    have hslt := hs.lt
    have hsle := hsx.le
    exact Span.not_isSolid_of_isSeparator (hxlt.le.trans hfenced.length) hseparator hbs.le
      (by omega) hs.first

/-- What holds of every span and is kept by joining holds of every run. -/
theorem forall_joinRuns {P : Span → Prop} {last : Span} {rest : List Span} (hlast : P last)
    (hrest : ∀ x ∈ rest, P x)
    (hjoin : ∀ r, ∀ x ∈ rest, P r → isSeparator (t.slice r.stop x.start) = true →
      P ⟨r.start, x.stop⟩) :
    ∀ r ∈ joinRuns t last rest, P r := by
  induction rest generalizing last with
  | nil => exact List.forall_mem_singleton.mpr hlast
  | cons x rest ih =>
    rw [List.forall_mem_cons] at hrest
    have hjoin' : ∀ r, ∀ y ∈ rest, P r → isSeparator (t.slice r.stop y.start) = true →
        P ⟨r.start, y.stop⟩ :=
      fun r y hy ↦ hjoin r y (List.mem_cons_of_mem x hy)
    rw [joinRuns]
    split_ifs with hseparator
    · exact ih (hjoin last x List.mem_cons_self hlast hseparator) hrest.2 hjoin'
    · exact List.forall_mem_cons.mpr ⟨hlast, ih hrest.1 hrest.2 hjoin'⟩

/-- Two runs with more than a separator between them. -/
inductive Severed (t : Text) : Span → Span → Prop where
  | mk {r r' a b : Span} (start : r'.start = a.start) (stop : r.stop = b.stop) (ha : a.IsFenced t)
      (hb : b.IsFenced t) (precedes : b.Precedes t a)
      (gap : isSeparator (t.slice b.stop a.start) = false) : Severed t r r'

theorem pairwise_joinRuns {last b : Span} {rest : List Span} (hstop : last.stop = b.stop)
    (hfenced : ∀ x ∈ b :: rest, x.IsFenced t) (h : (b :: rest).Pairwise (Span.Precedes t)) :
    (joinRuns t last rest).Pairwise (Severed t) := by
  induction rest generalizing last b with
  | nil => exact List.pairwise_singleton _ _
  | cons x rest ih =>
    rw [List.forall_mem_cons] at hfenced
    rw [List.pairwise_cons] at h
    have hx := (List.forall_mem_cons.mp hfenced.2).1
    have hxrest := (List.pairwise_cons.mp h.2).1
    rw [joinRuns]
    split_ifs with hseparator
    · exact ih (b := x) rfl hfenced.2 h.2
    · refine List.pairwise_cons.mpr ⟨fun r hr ↦ ?_, ih rfl hfenced.2 h.2⟩
      have hstart : ∃ a ∈ x :: rest, r.start = a.start :=
        forall_joinRuns (P := fun r ↦ ∃ a ∈ x :: rest, r.start = a.start)
          ⟨x, List.mem_cons_self, rfl⟩ (fun y hy ↦ ⟨y, List.mem_cons_of_mem x hy, rfl⟩)
          (fun _ _ _ hr _ ↦ hr) r hr
      obtain ⟨a, ha, hra⟩ := hstart
      refine .mk hra hstop (hfenced.2 a ha) hfenced.1 (h.1 a ha) (eq_false_of_ne_true fun hgap ↦ ?_)
      rcases List.mem_cons.mp ha with rfl | ha
      · exact hseparator (hstop ▸ hgap)
      · -- the start of `x` is in the gap
        have hxa := (hxrest a ha).le
        have haFenced := hfenced.2 a (List.mem_cons_of_mem x ha)
        exact Span.not_isSolid_of_isSeparator (haFenced.lt.le.trans haFenced.length) hgap
          (h.1 x List.mem_cons_self).le (hx.lt.trans_le hxa) hx.first

theorem isRun_of_mem_runsOf (hfenced : ∀ x ∈ spans, x.IsFenced t) :
    ∀ r ∈ runsOf t spans, IsRun t spans r := by
  have hmem : ∀ x ∈ Span.sortByStart spans, x ∈ spans :=
    fun x ↦ (List.mergeSort_perm _ _).mem_iff.mp
  unfold runsOf
  split
  · exact fun _ hr ↦ nomatch hr
  · next first rest hsorted =>
    rw [hsorted, List.forall_mem_cons] at hmem
    exact forall_joinRuns (.single hmem.1 (hfenced _ hmem.1))
      (fun x hx ↦ .single (hmem.2 x hx) (hfenced x (hmem.2 x hx)))
      (fun _ x hx hr hseparator ↦ hr.join (hmem.2 x hx) (hfenced x (hmem.2 x hx)) hseparator)

/-- A run starts with one of the spans. -/
theorem exists_start_of_mem_runsOf {r : Span} (h : r ∈ runsOf t spans) :
    ∃ x ∈ spans, r.start = x.start := by
  have hmem : ∀ x ∈ Span.sortByStart spans, x ∈ spans :=
    fun x ↦ (List.mergeSort_perm _ _).mem_iff.mp
  unfold runsOf at h
  split at h
  · exact (List.not_mem_nil h).elim
  · next first rest hsorted =>
    rw [hsorted, List.forall_mem_cons] at hmem
    exact forall_joinRuns (P := fun r ↦ ∃ x ∈ spans, r.start = x.start) ⟨first, hmem.1, rfl⟩
      (fun x hx ↦ ⟨x, hmem.2 x hx, rfl⟩) (fun _ _ _ hr _ ↦ hr) r h

theorem pairwise_runsOf (hfenced : ∀ x ∈ spans, x.IsFenced t)
    (hbeside : spans.Pairwise (Span.Beside t)) :
    (runsOf t spans).Pairwise (Severed t) := by
  have hmem : ∀ x ∈ Span.sortByStart spans, x ∈ spans :=
    fun x ↦ (List.mergeSort_perm _ _).mem_iff.mp
  have hordered : (Span.sortByStart spans).Pairwise (Span.Precedes t) :=
    Span.pairwise_sortByStart hbeside fun a ha b hab ↦ (hfenced a ha).lt.trans_le hab.le
  unfold runsOf
  split
  · exact .nil
  · next first rest hsorted =>
    rw [hsorted] at hmem hordered
    exact pairwise_joinRuns rfl (fun x hx ↦ hfenced x (hmem x hx)) hordered

/-! ### The edits of a block -/

/-- The edits of a block are its deletions and then those of its statements. -/
theorem exists_of_ofBlock {b : Block} {edits : List Edit} (h : ofBlock t b = .ok edits) :
    ∃ own edit, (runsOf t b.excised).mapM (deleteStatement t) = .ok own ∧
      (∀ s ∈ b.statements, ofStatement t s = .ok (edit s)) ∧
      edits = own ++ b.statements.flatMap edit := by
  obtain ⟨span, statements, excised, emptied⟩ := b
  simp only [ofBlock, Except.bind_eq_ok_iff] at h
  obtain ⟨own, hown, inner, hinner, h⟩ := h
  obtain ⟨edit, hedit, rfl⟩ := Except.exists_of_collect (f := ofStatement t) rfl
    (fun s rest ↦ by rw [ofStatements]) hinner
  exact ⟨own, edit, hown, hedit, (Except.ok.inj h).symm⟩

/-- The edits of a construct are those of the blocks of its clauses and then the deletions of its
clauses. -/
theorem exists_of_ofConstruct {c : Construct} {edits : List Edit}
    (h : ofConstruct t c = .ok edits) :
    ∃ edit deletion, (∀ cl ∈ c.clauses, ofBlock t cl.body = .ok (edit cl)) ∧
      (∀ x ∈ c.dropped, deleteClause t x = .ok (deletion x)) ∧
        edits = c.clauses.flatMap edit ++ c.dropped.map deletion := by
  obtain ⟨kind, span, clauses, dropped⟩ := c
  simp only [ofConstruct, Except.bind_eq_ok_iff] at h
  obtain ⟨inner, hinner, own, hown, h⟩ := h
  obtain ⟨edit, hedit, rfl⟩ :=
    Except.exists_of_collect (f := fun cl : Clause ↦ ofBlock t cl.body) rfl
      (fun cl rest ↦ by cases cl; rw [ofClauses]) hinner
  obtain ⟨deletion, hdeletion, rfl⟩ := Except.exists_of_mapM hown
  exact ⟨edit, deletion, hedit, hdeletion, (Except.ok.inj h).symm⟩

/-! ### The deletions of a block -/

variable {own : List Edit} {part s piece : Span}

theorem IsRun.exists_deletion {r : Span} {e : Edit} (h : IsRun t spans r)
    (hfenced : ∀ x ∈ spans, x.IsFenced t) (he : deleteStatement t r = .ok e) :
    ∃ i j, e = deletion i j ∧ t.Retreats r.start i ∧ t.Advances r.stop j ∧ i < j := by
  cases h with
  | @mk a b first last lt apart =>
    have ha := hfenced a first
    have hb := hfenced b last
    obtain ⟨i, j, hdeletion, hi, hj⟩ :=
      retreats_of_deleteStatement (s := ⟨a.start, b.stop⟩) (ha.lt.le.trans ha.length) hb.length he
    exact ⟨i, j, hdeletion, hi, hj, (hi.le.trans_lt lt).trans_le (hj.le hb.length)⟩

/-- The deletions of a block do not overlap, and they stay in a part of the text around the
block. -/
theorem confined_deletions (hfenced : ∀ x ∈ spans, x.IsFenced t)
    (hbeside : spans.Pairwise (Span.Beside t)) (hfloor : t.IsFloor part.start)
    (hencloses : ∀ x ∈ spans, part.Encloses t x)
    (h : (runsOf t spans).mapM (deleteStatement t) = .ok own) :
    Confined part (fun _ ↦ False) own := by
  obtain ⟨edit, hedit, rfl⟩ := Except.exists_of_mapM h
  have hruns := isRun_of_mem_runsOf hfenced
  have hdeletion := fun r hr ↦ (hruns r hr).exists_deletion hfenced (hedit r hr)
  refine ⟨?_, ?_, ?_, fun _ hs ↦ hs.elim, fun _ hs ↦ hs.elim⟩
  · refine List.forall_mem_map.mpr fun r hr ↦ ?_
    obtain ⟨i, j, hij, -, -, hlt⟩ := hdeletion r hr
    rw [hij]
    exact Int.ofNat_lt.mpr hlt
  · refine List.forall_mem_map.mpr fun r hr ↦ ?_
    obtain ⟨i, j, hij, hi, hj, -⟩ := hdeletion r hr
    rw [hij]
    cases hruns r hr with
    | @mk a b first last lt apart =>
      have hstart := hfloor.le_retreats (hencloses a first).start hi
      have hstop := (hj.le_nextLine (hfenced b last).length).trans (hencloses b last).stop
      exact ⟨Int.ofNat_le.mpr hstart, Int.ofNat_le.mpr hstop⟩
  · refine List.pairwise_map.mpr
      ((pairwise_runsOf hfenced hbeside).imp_of_mem fun {r r'} hr hr' hsevered ↦ ?_)
    obtain ⟨i, j, hij, -, hj, -⟩ := hdeletion r hr
    obtain ⟨i', j', hij', hi', -, -⟩ := hdeletion r' hr'
    rw [hij, hij']
    cases hsevered with
    | mk start stop ha hb precedes gap =>
      rw [stop] at hj
      rw [start] at hi'
      exact .inl (Int.ofNat_le.mpr (precedes.advances_le_retreats hb ha hj hi' gap))

/-- A deletion leaves alone what a statement that stays occupies. -/
theorem spares_occupied (hfenced : ∀ x ∈ spans, x.IsFenced t)
    (h : (runsOf t spans).mapM (deleteStatement t) = .ok own) (hs : s.IsFenced t)
    (hbeside : ∀ x ∈ spans, s.Beside t x) (hpiece : s.Occupies t piece) :
    ∀ e ∈ own, e.Spares piece := by
  obtain ⟨edit, hedit, rfl⟩ := Except.exists_of_mapM h
  refine List.forall_mem_map.mpr fun r hr ↦ ?_
  have hrun := isRun_of_mem_runsOf hfenced r hr
  obtain ⟨i, j, hij, hi, hj, -⟩ := hrun.exists_deletion hfenced (hedit r hr)
  rw [hij]
  cases hrun with
  | @mk a b first last lt apart =>
    rcases apart s hs hbeside with hsa | hbs
    · exact .inr (Int.ofNat_le.mpr (hsa.occupied_le_retreats hs (hfenced a first) hpiece hi))
    · exact .inl (Int.ofNat_le.mpr ((hbs.advances_le (hfenced b last) hs hj).trans hpiece.start))

end Edit

end Declutter
