import Declutter.Proofs.Tree.Rendering
/-!
What is missing in a tree. The gaps of a tree are the spans of the statements and clauses that were
taken out of it (`Block.gaps`). They are all that has to be done when the tree is written back:
every edit fills some gap (`Edit.fills_ofBlock`), and every gap is covered by an edit
(`Edit.exists_covers_ofBlock`).
-/

set_option autoImplicit false
set_option relaxedAutoImplicit false

namespace Declutter

open scoped List

variable {t : Text} {edits : List Edit}

/-! ### Spans in spans -/

/-- The span `p` is inside the span `s`. -/
structure Span.Contains (s p : Span) : Prop where
  start : s.start ≤ p.start
  stop : p.stop ≤ s.stop

instance (s p : Span) : Decidable (s.Contains p) :=
  decidable_of_iff (s.start ≤ p.start ∧ p.stop ≤ s.stop)
    ⟨fun ⟨h₁, h₂⟩ ↦ ⟨h₁, h₂⟩, fun ⟨h₁, h₂⟩ ↦ ⟨h₁, h₂⟩⟩

theorem Span.Contains.refl (s : Span) : s.Contains s := ⟨le_rfl, le_rfl⟩

theorem Span.Contains.trans {a b c : Span} (h : a.Contains b) (h' : b.Contains c) : a.Contains c :=
  ⟨h.start.trans h'.start, h'.stop.trans h.stop⟩

/-- The span is a part of the text. -/
structure Span.IsPart (t : Text) (s : Span) : Prop where
  le : s.start ≤ s.stop
  length : s.stop ≤ t.length

/-! ### Gaps -/

/-- The spans of what is missing in the statement itself: the clauses dropped from it, the
statements that went from the blocks of its clauses, and what a placeholder stands for. -/
def Statement.gaps : Statement → List Span
  | .compound c => c.dropped ++ c.clauses.flatMap (·.body.excised)
  | .placeholder span => [span]
  | .expression .. | .inert .. => []

/-- The spans of what is missing in the statement, at any depth. -/
def Statement.allGaps (s : Statement) : List Span := s.all.flatMap Statement.gaps

/-- The spans of what is missing in the block, at any depth. -/
def Block.gaps (b : Block) : List Span := b.excised ++ b.all.flatMap Statement.gaps

theorem Block.mem_gaps_iff {b : Block} {x : Span} :
    x ∈ b.gaps ↔ x ∈ b.excised ∨ ∃ s ∈ b.statements, x ∈ s.allGaps := by
  rw [gaps, all_eq, List.flatMap_assoc, List.mem_append, List.mem_flatMap]
  rfl

theorem Statement.allGaps_expression (span : Span) (value : Expression) :
    (Statement.expression span value).allGaps = [] := by simp [allGaps, gaps]

theorem Statement.allGaps_inert (span : Span) (type : Text) :
    (Statement.inert span type).allGaps = [] := by
  simp [allGaps, gaps]

theorem Statement.allGaps_placeholder (span : Span) :
    (Statement.placeholder span).allGaps = [span] := by
  simp [allGaps, gaps]

theorem Statement.mem_allGaps_compound {c : Construct} {x : Span} :
    x ∈ (Statement.compound c).allGaps ↔ x ∈ c.dropped ∨ ∃ cl ∈ c.clauses, x ∈ cl.body.gaps := by
  simp only [allGaps, all_compound, Construct.inner_eq, List.flatMap_cons, List.flatMap_assoc,
    gaps, Block.gaps, List.mem_append, List.mem_flatMap]
  constructor
  · rintro ((hdropped | ⟨cl, hcl, hx⟩) | ⟨cl, hcl, hx⟩)
    · exact .inl hdropped
    · exact .inr ⟨cl, hcl, .inl hx⟩
    · exact .inr ⟨cl, hcl, .inr hx⟩
  · rintro (hdropped | ⟨cl, hcl, hx | hx⟩)
    · exact .inl (.inl hdropped)
    · exact .inl (.inr ⟨cl, hcl, hx⟩)
    · exact .inr ⟨cl, hcl, hx⟩

/-- Nothing is missing in a fresh statement. -/
theorem Statement.IsFresh.gaps {s : Statement} (h : s.IsFresh) : s.gaps = [] := by
  cases s with
  | expression => rfl
  | inert => rfl
  | placeholder => exact h.elim
  | compound c =>
    have hc : c.IsFresh := h
    rw [Statement.gaps, hc.dropped, List.nil_append, List.flatMap_eq_nil_iff]
    exact hc.excised

/-! ### Edits fill gaps -/

namespace Edit

/-- The edit takes out something that is missing, or puts a placeholder where it was. -/
inductive Fills (t : Text) (gaps : List Span) : Edit → Prop where
  | run {spans : List Span} {r : Span} {e : Edit} (among : spans ⊆ gaps) (mem : r ∈ runsOf t spans)
      (edit : deleteStatement t r = .ok e) : Fills t gaps e
  | clause {x : Span} {e : Edit} (mem : x ∈ gaps) (edit : deleteClause t x = .ok e) : Fills t gaps e
  | placeholder {x : Span} (mem : x ∈ gaps) : Fills t gaps ⟨x.start, x.stop, placeholderText⟩

theorem Fills.mono {gaps gaps' : List Span} {e : Edit} (h : Fills t gaps e) (hsub : gaps ⊆ gaps') :
    Fills t gaps' e := by
  cases h with
  | run among mem edit => exact .run (List.Subset.trans among hsub) mem edit
  | clause mem edit => exact .clause (hsub mem) edit
  | placeholder mem => exact .placeholder (hsub mem)

theorem fills_ofBlock_of {b : Block}
    (hstatements : ∀ s ∈ b.statements, ∀ inner, ofStatement t s = .ok inner →
      ∀ e ∈ inner, Fills t s.allGaps e)
    (h : ofBlock t b = .ok edits) : ∀ e ∈ edits, Fills t b.gaps e := by
  obtain ⟨own, edit, hown, hedit, rfl⟩ := exists_of_ofBlock h
  obtain ⟨deletion, hdeletion, rfl⟩ := Except.exists_of_mapM hown
  refine List.forall_mem_append.mpr
    ⟨List.forall_mem_map.mpr fun r hr ↦ ?_, List.forall_mem_flatMap.mpr fun s hs e he ↦ ?_⟩
  · exact .run (fun x hx ↦ Block.mem_gaps_iff.mpr (.inl hx)) hr (hdeletion r hr)
  · exact (hstatements s hs _ (hedit s hs) e he).mono fun x hx ↦
      Block.mem_gaps_iff.mpr (.inr ⟨s, hs, hx⟩)

theorem fills_ofStatement (s : Statement) :
    ∀ edits, ofStatement t s = .ok edits → ∀ e ∈ edits, Fills t s.allGaps e := by
  induction s using Statement.induct with
  | expression span value =>
    rintro _ ⟨⟩
    exact fun _ he ↦ (List.not_mem_nil he).elim
  | inert span type =>
    rintro _ ⟨⟩
    exact fun _ he ↦ (List.not_mem_nil he).elim
  | placeholder span =>
    rintro _ ⟨⟩
    rw [Statement.allGaps_placeholder]
    exact List.forall_mem_singleton.mpr (.placeholder (List.mem_singleton_self _))
  | compound c ih =>
    intro edits h
    rw [ofStatement] at h
    obtain ⟨edit, deletion, hedit, hdeletion, rfl⟩ := exists_of_ofConstruct h
    refine List.forall_mem_append.mpr
      ⟨List.forall_mem_flatMap.mpr fun cl hcl e he ↦ ?_, List.forall_mem_map.mpr fun x hx ↦ ?_⟩
    · exact (fills_ofBlock_of (ih cl hcl) (hedit cl hcl) e he).mono fun x hx ↦
        Statement.mem_allGaps_compound.mpr (.inr ⟨cl, hcl, hx⟩)
    · exact .clause (Statement.mem_allGaps_compound.mpr (.inl hx)) (hdeletion x hx)

/-- Nothing is edited but what is missing. -/
theorem fills_ofBlock {b : Block} (h : ofBlock t b = .ok edits) : ∀ e ∈ edits, Fills t b.gaps e :=
  fills_ofBlock_of (fun s _ ↦ fills_ofStatement s) h

theorem text_deleteStatement {s : Span} {e : Edit} (h : deleteStatement t s = .ok e) :
    e.text = [] := by
  unfold deleteStatement at h
  dsimp only at h
  by_cases hblank : (t.slice (t.lineStart s.start) s.start).isBlank = true
  · rw [if_pos hblank] at h
    split at h
    · split_ifs at h <;> exact Except.ok.inj h ▸ rfl
    · split_ifs at h
      exact Except.ok.inj h ▸ rfl
  · rw [if_neg hblank] at h
    split at h <;> exact Except.ok.inj h ▸ rfl

/-- An edit of a tree writes nothing but placeholders. -/
theorem Fills.text_cases {gaps : List Span} {e : Edit} (h : Fills t gaps e) :
    e.text = [] ∨ e.text = placeholderText := by
  cases h with
  | run among mem edit => exact .inl (text_deleteStatement edit)
  | clause mem edit => exact .inl ((deleteClause_eq_ok edit).1 ▸ rfl)
  | placeholder mem => exact .inr rfl

/-- Where nothing is missing there is no edit. -/
theorem not_fills_nil {e : Edit} : ¬ Fills t [] e := by
  intro h
  cases h with
  | run among mem edit =>
    obtain ⟨x, hx, -⟩ := exists_start_of_mem_runsOf mem
    exact List.not_mem_nil (among hx)
  | clause mem edit => exact List.not_mem_nil mem
  | placeholder mem => exact List.not_mem_nil mem

/-! ### Gaps are covered -/

/-- The edit replaces the span, and maybe more. -/
structure Covers (e : Edit) (s : Span) : Prop where
  start : e.start ≤ s.start
  stop : (s.stop : Int) ≤ e.stop

theorem Covers.mono {e : Edit} {s p : Span} (h : e.Covers s) (hcontains : s.Contains p) :
    e.Covers p :=
  ⟨Int.le_trans h.start (Int.ofNat_le.mpr hcontains.start),
    Int.le_trans (Int.ofNat_le.mpr hcontains.stop) h.stop⟩

theorem Covers.read_subset {e : Edit} {s : Span} (h : e.Covers s) : s.read t ⊆ e.replaced t := by
  have hstart := h.start
  have hstop := h.stop
  have htake : t.take s.stop <+ t.take e.stop.toNat := List.take_sublist_take_left (by omega)
  have hdrop :=
    List.drop_sublist_drop_left (t.take e.stop.toNat) (by omega : e.start.toNat ≤ s.start)
  exact ((htake.drop s.start).trans hdrop).subset

theorem covers_deleteStatement {s : Span} {e : Edit} (hs : s.IsPart t)
    (h : deleteStatement t s = .ok e) :
    e.Covers s := by
  obtain ⟨i, j, rfl, hi, hj⟩ := retreats_of_deleteStatement (hs.le.trans hs.length) hs.length h
  exact ⟨Int.ofNat_le.mpr hi.le, Int.ofNat_le.mpr (hj.le hs.length)⟩

theorem covers_deleteClause {s : Span} {e : Edit} (hs : s.IsPart t) (h : deleteClause t s = .ok e) :
    e.Covers s := by
  obtain ⟨rfl, -⟩ := deleteClause_eq_ok h
  exact ⟨Int.ofNat_le.mpr (t.lineStart_le _), Int.ofNat_le.mpr (Text.le_nextLine hs.length)⟩

/-- Joining loses nothing: each span is inside the run in hand or inside a later one. -/
theorem exists_contains_joinRuns {last : Span} {rest : List Span} (hlast : last.start ≤ last.stop)
    (hrest : ∀ x ∈ rest, x.start ≤ x.stop) :
    ∀ x ∈ last :: rest, ∃ r ∈ joinRuns t last rest, r.Contains x := by
  induction rest generalizing last with
  | nil =>
    rw [joinRuns]
    exact List.forall_mem_singleton.mpr ⟨last, List.mem_singleton_self _, .refl _⟩
  | cons y rest ih =>
    rw [List.forall_mem_cons] at hrest
    rw [joinRuns]
    split_ifs with hseparator
    · have hlt := lt_of_isSeparator hseparator
      have hy := hrest.1
      have hjoined := @ih { last with stop := y.stop } (by dsimp only; omega) hrest.2
      obtain ⟨⟨r, hr, hcontains⟩, hlater⟩ := List.forall_mem_cons.mp hjoined
      refine List.forall_mem_cons.mpr ⟨⟨r, hr, hcontains.trans ⟨le_rfl, ?_⟩⟩,
        List.forall_mem_cons.mpr ⟨⟨r, hr, hcontains.trans ⟨?_, le_rfl⟩⟩, hlater⟩⟩
      · dsimp only
        omega
      · dsimp only
        omega
    · refine List.forall_mem_cons.mpr ⟨⟨last, List.mem_cons_self, .refl _⟩, fun x hx ↦ ?_⟩
      obtain ⟨r, hr, hcontains⟩ := ih hrest.1 hrest.2 x hx
      exact ⟨r, List.mem_cons_of_mem _ hr, hcontains⟩

theorem exists_contains_runsOf {spans : List Span} (h : ∀ x ∈ spans, x.IsPart t) :
    ∀ x ∈ spans, ∃ r ∈ runsOf t spans, r.IsPart t ∧ r.Contains x := by
  have hmem : ∀ x, x ∈ Span.sortByStart spans ↔ x ∈ spans :=
    fun x ↦ (List.mergeSort_perm _ _).mem_iff
  unfold runsOf
  intro x hx
  rw [← hmem] at hx
  split
  · next hsorted =>
    rw [hsorted] at hx
    exact (List.not_mem_nil hx).elim
  · next first rest hsorted =>
    rw [hsorted] at hx hmem
    have hparts : ∀ y ∈ first :: rest, y.IsPart t := fun y hy ↦ h y ((hmem y).mp hy)
    rw [List.forall_mem_cons] at hparts
    have hruns : ∀ r ∈ joinRuns t first rest, r.IsPart t := by
      refine forall_joinRuns hparts.1 hparts.2 fun r y hy hr hseparator ↦ ?_
      have hlt := lt_of_isSeparator hseparator
      have hle := (hparts.2 y hy).le
      exact ⟨(hr.le.trans hlt.le).trans hle, (hparts.2 y hy).length⟩
    obtain ⟨r, hr, hcontains⟩ :=
      exists_contains_joinRuns hparts.1.le (fun y hy ↦ (hparts.2 y hy).le) x hx
    exact ⟨r, hr, hruns r hr, hcontains⟩

theorem exists_covers_ofBlock_of {b : Block} (hgaps : ∀ x ∈ b.gaps, x.IsPart t)
    (hstatements : ∀ s ∈ b.statements, ∀ inner, ofStatement t s = .ok inner →
      ∀ x ∈ s.allGaps, ∃ e ∈ inner, e.Covers x)
    (h : ofBlock t b = .ok edits) : ∀ x ∈ b.gaps, ∃ e ∈ edits, e.Covers x := by
  obtain ⟨own, edit, hown, hedit, rfl⟩ := exists_of_ofBlock h
  obtain ⟨deletion, hdeletion, rfl⟩ := Except.exists_of_mapM hown
  intro x hx
  rcases Block.mem_gaps_iff.mp hx with hexcised | ⟨s, hs, hinner⟩
  · obtain ⟨r, hr, hpart, hcontains⟩ :=
      exists_contains_runsOf (fun y hy ↦ hgaps y (Block.mem_gaps_iff.mpr (.inl hy))) x hexcised
    exact ⟨_, List.mem_append_left _ (List.mem_map_of_mem hr),
      (covers_deleteStatement hpart (hdeletion r hr)).mono hcontains⟩
  · obtain ⟨e, he, hcovers⟩ := hstatements s hs _ (hedit s hs) x hinner
    exact ⟨e, List.mem_append_right _ (List.mem_flatMap.mpr ⟨s, hs, he⟩), hcovers⟩

theorem exists_covers_ofStatement (s : Statement) (hgaps : ∀ x ∈ s.allGaps, x.IsPart t) :
    ∀ edits, ofStatement t s = .ok edits → ∀ x ∈ s.allGaps, ∃ e ∈ edits, e.Covers x := by
  induction s using Statement.induct with
  | expression span value =>
    rw [Statement.allGaps_expression]
    exact fun _ _ _ hx ↦ (List.not_mem_nil hx).elim
  | inert span type =>
    rw [Statement.allGaps_inert]
    exact fun _ _ _ hx ↦ (List.not_mem_nil hx).elim
  | placeholder span =>
    rintro _ ⟨⟩
    rw [Statement.allGaps_placeholder]
    exact List.forall_mem_singleton.mpr ⟨_, List.mem_singleton_self _, Int.le_refl _, Int.le_refl _⟩
  | compound c ih =>
    have hclauses : ∀ cl ∈ c.clauses, ∀ x ∈ cl.body.gaps, x.IsPart t := fun cl hcl x hx ↦
      hgaps x (Statement.mem_allGaps_compound.mpr (.inr ⟨cl, hcl, hx⟩))
    intro edits h
    rw [ofStatement] at h
    obtain ⟨edit, deletion, hedit, hdeletion, rfl⟩ := exists_of_ofConstruct h
    intro x hx
    rcases Statement.mem_allGaps_compound.mp hx with hdropped | ⟨cl, hcl, hinner⟩
    · exact ⟨_, List.mem_append_right _ (List.mem_map_of_mem hdropped),
        covers_deleteClause (hgaps x hx) (hdeletion x hdropped)⟩
    · obtain ⟨e, he, hcovers⟩ := exists_covers_ofBlock_of (hclauses cl hcl)
        (fun s hs ↦ ih cl hcl s hs fun y hy ↦
          hclauses cl hcl y (Block.mem_gaps_iff.mpr (.inr ⟨s, hs, hy⟩)))
        (hedit cl hcl) x hinner
      exact ⟨e, List.mem_append_left _ (List.mem_flatMap.mpr ⟨cl, hcl, he⟩), hcovers⟩

/-- Everything that is missing is edited. -/
theorem exists_covers_ofBlock {b : Block} (hgaps : ∀ x ∈ b.gaps, x.IsPart t)
    (h : ofBlock t b = .ok edits) :
    ∀ x ∈ b.gaps, ∃ e ∈ edits, e.Covers x :=
  exists_covers_ofBlock_of hgaps (fun s hs ↦ exists_covers_ofStatement s fun y hy ↦
    hgaps y (Block.mem_gaps_iff.mpr (.inr ⟨s, hs, hy⟩))) h

end Edit

end Declutter
