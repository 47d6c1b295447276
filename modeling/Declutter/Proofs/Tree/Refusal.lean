import Declutter.Proofs.Tree.Rendering
/-!
When a tree cannot be written back. A deletion is refused for what stands on the lines of what is
deleted (`Edit.deleteStatement_eq_error_iff`, `Edit.deleteClause_eq_error_iff`), and a tree has its
edits exactly if no deletion in it is refused (`Edit.exists_ofBlock_iff`). Nothing else can go
wrong: the edits of a pruned tree never collide (`Tree.exists_render_prune_iff`).
-/

set_option autoImplicit false
set_option relaxedAutoImplicit false

namespace Declutter

variable {t : Text}

/-! ### Deletions -/

/-- The statements in the span can be deleted: if they begin their line, then a separator or no code
at all follows them on the line on which they stop. -/
def Span.IsDetachable (t : Text) (s : Span) : Prop :=
  (t.slice (t.lineStart s.start) s.start).isBlank = true →
    (Edit.afterSeparator? (t.slice s.stop (t.lineEnd s.stop))).isSome = true ∨
      Edit.holdsNoCode (t.slice s.stop (t.lineEnd s.stop)) = true

/-- Nothing but the span is on its lines, blanks and a comment aside. -/
structure Span.HasLines (t : Text) (s : Span) : Prop where
  begins : (t.slice (t.lineStart s.start) s.start).isBlank = true
  closes : Edit.holdsNoCode (t.slice s.stop (t.lineEnd s.stop)) = true

namespace Edit

variable {s : Span}

theorem exists_deleteStatement (h : s.IsDetachable t) : ∃ e, deleteStatement t s = .ok e := by
  unfold deleteStatement
  dsimp only
  by_cases hblank : (t.slice (t.lineStart s.start) s.start).isBlank = true
  · rw [if_pos hblank]
    cases hseparator : afterSeparator? (t.slice s.stop (t.lineEnd s.stop)) with
    | some following =>
      dsimp only
      split_ifs
      · exact ⟨_, rfl⟩
      · exact ⟨_, rfl⟩
    | none =>
      have hcode := (h hblank).resolve_left (by rw [hseparator]; exact Bool.noConfusion)
      exact ⟨_, if_pos hcode⟩
  · rw [if_neg hblank]
    split
    · exact ⟨_, rfl⟩
    · exact ⟨_, rfl⟩
    · exact ⟨_, rfl⟩

theorem deleteStatement_of_not_isDetachable (h : ¬ s.IsDetachable t) :
    deleteStatement t s = .error (.codeAfterStatement s.stop) := by
  rw [Span.IsDetachable, Classical.not_imp, not_or, Bool.not_eq_true, Option.isSome_eq_false_iff,
    Option.isNone_iff_eq_none] at h
  obtain ⟨hblank, hseparator, hcode⟩ := h
  simp only [deleteStatement, if_pos hblank, hseparator, if_neg hcode]

theorem exists_deleteStatement_iff : (∃ e, deleteStatement t s = .ok e) ↔ s.IsDetachable t := by
  refine ⟨fun ⟨e, he⟩ ↦ ?_, exists_deleteStatement⟩
  by_contra hnot
  rw [deleteStatement_of_not_isDetachable hnot] at he
  exact nomatch he

/-- The deletion of a statement is refused only at the stop of the statement, for what follows it
there. -/
theorem deleteStatement_eq_error_iff {fault : RenderFault} :
    deleteStatement t s = .error fault ↔ ¬ s.IsDetachable t ∧
    fault = .codeAfterStatement s.stop := by
  by_cases h : s.IsDetachable t
  · obtain ⟨e, he⟩ := exists_deleteStatement h
    rw [he]
    exact iff_of_false (fun hok ↦ nomatch hok) fun hnot ↦ hnot.1 h
  · rw [deleteStatement_of_not_isDetachable h, Except.error.injEq, eq_comm]
    exact ⟨fun hfault ↦ ⟨h, hfault⟩, And.right⟩

theorem exists_deleteClause_iff : (∃ e, deleteClause t s = .ok e) ↔ s.HasLines t := by
  unfold deleteClause
  dsimp only
  constructor
  · rintro ⟨e, he⟩
    split_ifs at he with hblank hcode
    exact ⟨by simpa using hblank, by simpa using hcode⟩
  · rintro ⟨hblank, hcode⟩
    rw [hblank, hcode]
    exact ⟨_, rfl⟩

/-- The deletion of a clause is refused if something stands before it on its line, or else for code
behind it. -/
theorem deleteClause_eq_error_iff {fault : RenderFault} :
    deleteClause t s = .error fault ↔ ¬ s.HasLines t ∧
      fault = if (t.slice (t.lineStart s.start) s.start).isBlank then .codeAfterClause s.stop
        else .clauseInsideLine s.start := by
  by_cases h : s.HasLines t
  · obtain ⟨e, he⟩ := exists_deleteClause_iff.mpr h
    rw [he]
    exact iff_of_false (fun hok ↦ nomatch hok) fun hnot ↦ hnot.1 h
  · have hfault : deleteClause t s = .error (if (t.slice (t.lineStart s.start) s.start).isBlank
        then .codeAfterClause s.stop else .clauseInsideLine s.start) := by
      unfold deleteClause
      dsimp only
      cases hbegins : (t.slice (t.lineStart s.start) s.start).isBlank with
      | false => rfl
      | true =>
        have hcode : holdsNoCode (t.slice s.stop (t.lineEnd s.stop)) = false :=
          eq_false_of_ne_true fun hcode ↦ h ⟨hbegins, hcode⟩
        rw [hcode]
        rfl
    rw [hfault, Except.error.injEq, eq_comm]
    exact ⟨fun hfault ↦ ⟨h, hfault⟩, And.right⟩

end Edit

/-! ### Trees -/

/-- What is deleted in the statement itself can be deleted: the clauses dropped from it and the runs
of statements that went from the blocks of its clauses. -/
def Statement.IsWritable (t : Text) : Statement → Prop
  | .compound c => (∀ x ∈ c.dropped, x.HasLines t) ∧
      ∀ cl ∈ c.clauses, ∀ run ∈ Edit.runsOf t cl.body.excised, run.IsDetachable t
  | .expression .. | .placeholder _ | .inert .. => True

/-- What is deleted in the block can be deleted, at any depth. -/
structure Block.IsWritable (t : Text) (b : Block) : Prop where
  runs : ∀ run ∈ Edit.runsOf t b.excised, run.IsDetachable t
  statements : ∀ s ∈ b.all, s.IsWritable t

namespace Edit

theorem exists_ofBlock_iff_of {b : Block}
    (h : ∀ s ∈ b.statements, (∃ edits, ofStatement t s = .ok edits) ↔ ∀ u ∈ s.all, u.IsWritable t) :
    (∃ edits, ofBlock t b = .ok edits) ↔ b.IsWritable t := by
  have hsplit : (∃ edits, ofBlock t b = .ok edits) ↔
      (∃ own, (runsOf t b.excised).mapM (deleteStatement t) = .ok own) ∧
        ∃ inner, ofStatements t b.statements = .ok inner := by
    obtain ⟨span, statements, excised, emptied⟩ := b
    simp only [ofBlock, Except.bind_eq_ok_iff]
    constructor
    · rintro ⟨_, own, hown, inner, hinner, -⟩
      exact ⟨⟨own, hown⟩, inner, hinner⟩
    · rintro ⟨⟨own, hown⟩, inner, hinner⟩
      exact ⟨own ++ inner, own, hown, inner, hinner, rfl⟩
  have hstatements : (∃ inner, ofStatements t b.statements = .ok inner) ↔
      ∀ s ∈ b.all, s.IsWritable t := by
    rw [Except.exists_collect_iff (f := ofStatement t) rfl (fun s rest ↦ by rw [ofStatements]),
      Block.forall_all]
    exact forall₂_congr h
  rw [hsplit, hstatements, Except.exists_mapM_iff]
  simp only [exists_deleteStatement_iff]
  exact ⟨fun h ↦ ⟨h.1, h.2⟩, fun h ↦ ⟨h.runs, h.statements⟩⟩

/-- A statement has its edits exactly if every deletion in it can be made. -/
theorem exists_ofStatement_iff (s : Statement) :
    (∃ edits, ofStatement t s = .ok edits) ↔ ∀ u ∈ s.all, u.IsWritable t := by
  induction s using Statement.induct with
  | expression span value =>
    rw [ofStatement, Statement.all_expression]
    exact iff_of_true ⟨_, rfl⟩ (List.forall_mem_singleton.mpr trivial)
  | placeholder span =>
    rw [ofStatement, Statement.all_placeholder]
    exact iff_of_true ⟨_, rfl⟩ (List.forall_mem_singleton.mpr trivial)
  | inert span type =>
    rw [ofStatement, Statement.all_inert]
    exact iff_of_true ⟨_, rfl⟩ (List.forall_mem_singleton.mpr trivial)
  | compound c ih =>
    have hsplit : (∃ edits, ofStatement t (.compound c) = .ok edits) ↔
        (∃ inner, ofClauses t c.clauses = .ok inner) ∧
        ∃ own, c.dropped.mapM (deleteClause t) = .ok own := by
      obtain ⟨kind, span, clauses, dropped⟩ := c
      simp only [ofStatement, ofConstruct, Except.bind_eq_ok_iff]
      constructor
      · rintro ⟨_, inner, hinner, own, hown, -⟩
        exact ⟨⟨inner, hinner⟩, own, hown⟩
      · rintro ⟨⟨inner, hinner⟩, own, hown⟩
        exact ⟨inner ++ own, inner, hinner, own, hown, rfl⟩
    have hclauses : (∃ inner, ofClauses t c.clauses = .ok inner) ↔
        ∀ cl ∈ c.clauses, cl.body.IsWritable t := by
      rw [Except.exists_collect_iff (f := fun cl : Clause ↦ ofBlock t cl.body) rfl
        (fun cl rest ↦ by cases cl; rw [ofClauses])]
      exact forall₂_congr fun cl hcl ↦ exists_ofBlock_iff_of (ih cl hcl)
    rw [hsplit, hclauses, Except.exists_mapM_iff]
    simp only [exists_deleteClause_iff]
    rw [Statement.all_compound, List.forall_mem_cons, Construct.inner_eq, List.forall_mem_flatMap]
    constructor
    · rintro ⟨hblocks, hdropped⟩
      exact ⟨⟨hdropped, fun cl hcl ↦ (hblocks cl hcl).runs⟩,
        fun cl hcl ↦ (hblocks cl hcl).statements⟩
    · rintro ⟨⟨hdropped, hruns⟩, hinner⟩
      exact ⟨fun cl hcl ↦ ⟨hruns cl hcl, hinner cl hcl⟩, hdropped⟩

/-- A block has its edits exactly if every deletion in it can be made. -/
theorem exists_ofBlock_iff (b : Block) : (∃ edits, ofBlock t b = .ok edits) ↔ b.IsWritable t :=
  exists_ofBlock_iff_of fun s _ ↦ exists_ofStatement_iff s

end Edit

/-- The edits of a pruned tree can be carried out as soon as every deletion in it can be made: no
two of them collide. -/
theorem Tree.exists_render_prune_iff {targets : TargetSet} {policy : Policy} {tree : Tree}
    (hfresh : tree.IsFresh) (hlaid : tree.IsLaidOut) :
    (∃ text, (tree.prune targets policy).1.render = .ok text) ↔
      (tree.prune targets policy).1.body.IsWritable tree.source := by
  have hsource : (tree.prune targets policy).1.source = tree.source := source_prune
  rw [← Edit.exists_ofBlock_iff, ← hsource]
  change _ ↔ ∃ edits, (tree.prune targets policy).1.edits = .ok edits
  constructor
  · rintro ⟨text, htext⟩
    obtain ⟨edits, hedits, -⟩ := Except.bind_eq_ok_iff.mp htext
    exact ⟨edits, hedits⟩
  · rintro ⟨edits, hedits⟩
    have hconfined := confined_prune hfresh hlaid hedits
    obtain ⟨text, happly, -⟩ := Edit.exists_applyAll hconfined.fits hconfined.apart
    refine ⟨text, ?_⟩
    rw [render, hedits, source_prune]
    exact Except.mapError_eq_ok_iff.mpr happly

end Declutter
