import Declutter.Proofs.Tree.Idle
/-!
The gaps that pruning leaves. Every call to a target is inside a gap of the pruned tree
(`Tree.exists_gap_prune`).

A call is spelt with a parenthesis and a placeholder without. So a text from which a call was taken
holds fewer parentheses than before, and is never the text that was read
(`Tree.count_render_prune_lt`).
-/

set_option autoImplicit false
set_option relaxedAutoImplicit false

namespace Declutter

variable {t : Text}

/-! ### Statements in statements -/

theorem Span.IsCode.isPart {s : Span} (h : s.IsCode t) : s.IsPart t := ⟨h.lt.le, h.length⟩

/-- The statements of a clause that is laid out are inside the clause. -/
theorem Clause.IsLaidOut.contains {cl : Clause} (h : cl.IsLaidOut t) :
    ∀ s ∈ cl.body.statements, cl.span.Contains s.span := by
  intro s hs
  obtain ⟨_, -, colon, -, hcolon, hbody, -⟩ := h.header
  obtain ⟨hstart, hstop⟩ := h.statements s hs
  exact ⟨(hcolon.trans hbody.le).trans hstart, hstop.trans h.body_stop_le⟩

/-- What is inside a statement that is laid out is inside its span. -/
theorem Statement.contains_of_mem_all (s : Statement) (hlaid : ∀ u ∈ s.all, u.IsLaidOut t) :
    ∀ u ∈ s.all, s.span.Contains u.span := by
  induction s using Statement.induct with
  | expression span value =>
    rw [all_expression]
    exact List.forall_mem_singleton.mpr (.refl _)
  | placeholder span =>
    rw [all_placeholder]
    exact List.forall_mem_singleton.mpr (.refl _)
  | inert span type =>
    rw [all_inert]
    exact List.forall_mem_singleton.mpr (.refl _)
  | compound c ih =>
    obtain ⟨hc, hinner⟩ := forall_all_compound.mp hlaid
    have hc' : c.IsLaidOut t := hc
    refine forall_all_compound.mpr ⟨.refl _, fun cl hcl s hs u hu ↦ ?_⟩
    obtain ⟨hstart, hstop⟩ := hc'.inside cl hcl
    have hclause : c.span.Contains cl.span := ⟨hstart, hstop⟩
    exact hclause.trans
      (((hc'.clauses cl hcl).contains s hs).trans (ih cl hcl s hs (hinner cl hcl s hs) u hu))

/-! ### The gaps that pruning leaves -/

section Pruning

variable {targets : TargetSet} {policy : Policy}

/-- A clause without statements has the same gaps when it is filled. -/
theorem Clause.mem_gaps_fill {cl : Clause} (h : cl.body.statements = []) {x : Span} :
    x ∈ cl.fill.1.body.gaps ↔ x ∈ cl.body.gaps := by
  rw [fill]
  split
  · rfl
  · next anchor rest hexcised =>
    rw [Block.mem_gaps_iff, Block.mem_gaps_iff, h, hexcised]
    simp [Statement.allGaps_placeholder, or_comm]

/-- Dropping leaves each clause as it is, or fills it, or leaves its span behind. -/
theorem Construct.mem_dropFrom (handled : Bool) (clauses : List Clause) : ∀ cl ∈ clauses,
    cl ∈ (dropFrom handled clauses).kept ∨ cl.body.emptied = true ∧
      (cl.fill.1 ∈ (dropFrom handled clauses).kept ∨
        cl.span ∈ (dropFrom handled clauses).dropped) := by
  induction clauses with
  | nil => exact fun _ hcl ↦ (List.not_mem_nil hcl).elim
  | cons c rest ih =>
    rw [dropFrom]
    dsimp only
    split_ifs with hemptied hgo
    · refine List.forall_mem_cons.mpr ⟨.inl List.mem_cons_self, fun cl hcl ↦ ?_⟩
      exact (ih cl hcl).imp (List.mem_cons_of_mem _)
        (And.imp_right (Or.imp_left (List.mem_cons_of_mem _)))
    · refine List.forall_mem_cons.mpr ⟨.inr ⟨by simpa using hemptied, .inr ?_⟩, fun cl hcl ↦ ?_⟩
      · exact List.mem_append_right _ (List.mem_singleton_self _)
      · exact (ih cl hcl).imp_right (And.imp_right (Or.imp_right (List.mem_append_left _)))
    · refine List.forall_mem_cons.mpr
        ⟨.inr ⟨by simpa using hemptied, .inl List.mem_cons_self⟩, fun cl hcl ↦ ?_⟩
      exact (ih cl hcl).imp (List.mem_cons_of_mem _)
        (And.imp_right (Or.imp_left (List.mem_cons_of_mem _)))

/-- Settling leaves each clause as it is, or fills it, or leaves its span behind. -/
theorem Construct.mem_settle {c d : Construct} (h : (c.settle policy).1 = some d) :
    ∀ cl ∈ c.clauses, cl ∈ d.clauses ∨ cl.body.emptied = true ∧
    (cl.fill.1 ∈ d.clauses ∨ cl.span ∈ d.dropped) := by
  unfold settle at h
  split_ifs at h
  · obtain rfl := Option.some.inj h
    exact fun _ hcl ↦ .inl hcl
  cases policy with
  | keep =>
    obtain rfl := Option.some.inj h
    exact fun _ hcl ↦ .inl hcl
  | fill =>
    obtain rfl := Option.some.inj h
    intro cl hcl
    have hmem : cl.fillEmptied.1 ∈ c.fillEmptied.1.clauses :=
      List.mem_map_of_mem (List.mem_map_of_mem hcl)
    rw [Clause.fillEmptied] at hmem
    split_ifs at hmem with hemptied
    · exact .inr ⟨hemptied, .inl hmem⟩
    · exact .inl hmem
  | remove =>
    simp only [discardEmptied] at h
    split_ifs at h
    obtain rfl := Option.some.inj h
    intro cl hcl
    refine (mem_dropFrom c.isHandled c.clauses cl hcl).imp_right
      (And.imp_right (Or.imp_right fun hspan ↦ ?_))
    exact (List.mergeSort_perm _ _).mem_iff.mpr (List.mem_append_right _ hspan)

/-! ### Calls that go -/

/-- A call that goes from a block is inside a gap of what is left. -/
theorem Block.exists_gap_prune_of {b : Block}
    (hcontains : ∀ s ∈ b.statements, ∀ u ∈ s.all, s.span.Contains u.span)
    (h : ∀ s ∈ b.statements, ∀ u ∈ s.all, targets.isHit u = true →
      ∀ kept ∈ (s.prune targets policy).1, ∃ x ∈ kept.allGaps, x.Contains u.span) :
    ∀ u ∈ b.all, targets.isHit u = true → ∃ x ∈ (b.prune targets policy).1.gaps,
    x.Contains u.span := by
  refine forall_all.mpr fun s hs u hu hhit ↦ ?_
  cases hprune : (s.prune targets policy).1 with
  | none =>
    refine ⟨s.span, mem_gaps_iff.mpr (.inl ?_), hcontains s hs u hu⟩
    rw [excised_prune]
    exact List.mem_append_right _
      (List.mem_map_of_mem (List.mem_filter.mpr ⟨hs, by rw [hprune]; rfl⟩))
  | some kept =>
    obtain ⟨x, hx, hxu⟩ := h s hs u hu hhit kept hprune
    refine ⟨x, mem_gaps_iff.mpr (.inr ⟨kept, ?_, hx⟩), hxu⟩
    rw [statements_prune]
    exact List.mem_filterMap.mpr ⟨s, hs, hprune⟩

/-- A call that goes from a statement, of which something is left, is inside a gap of what is
left. -/
theorem Statement.exists_gap_prune (s : Statement) (hlaid : ∀ u ∈ s.all, u.IsLaidOut t) :
    ∀ u ∈ s.all, targets.isHit u = true → ∀ kept ∈ (s.prune targets policy).1,
      ∃ x ∈ kept.allGaps, x.Contains u.span := by
  induction s using Statement.induct with
  | expression span value =>
    rw [all_expression]
    refine List.forall_mem_singleton.mpr fun hhit kept hkept ↦ ?_
    have htarget : targets.isTarget value = true := hhit
    rw [prune, if_pos htarget] at hkept
    cases hkept
  | placeholder span =>
    rw [all_placeholder]
    exact List.forall_mem_singleton.mpr fun hhit ↦ Bool.noConfusion hhit
  | inert span type =>
    rw [all_inert]
    exact List.forall_mem_singleton.mpr fun hhit ↦ Bool.noConfusion hhit
  | compound c ih =>
    obtain ⟨hc, hinner⟩ := forall_all_compound.mp hlaid
    have hc' : c.IsLaidOut t := hc
    refine forall_all_compound.mpr
      ⟨fun hhit ↦ Bool.noConfusion hhit, fun cl hcl s hs u hu hhit kept hkept ↦ ?_⟩
    rw [fst_prune_compound] at hkept
    obtain ⟨d, hsettle, rfl⟩ := Option.map_eq_some_iff.mp hkept
    have hcontains : ∀ s ∈ cl.body.statements, ∀ u ∈ s.all, s.span.Contains u.span := fun s hs ↦
      s.contains_of_mem_all (hinner cl hcl s hs)
    obtain ⟨x, hx, hxu⟩ := Block.exists_gap_prune_of hcontains
      (fun s hs ↦ ih cl hcl s hs (hinner cl hcl s hs)) u
        (Block.forall_all.mp (fun _ h ↦ h) s hs u hu) hhit
    rw [← Clause.body_prune] at hx
    have hmem : (cl.prune targets policy).1 ∈ (c.pruneInner targets policy).clauses :=
      List.mem_map_of_mem hcl
    rcases Construct.mem_settle hsettle _ hmem with hkept | ⟨hemptied, hfilled | hdropped⟩
    · exact ⟨x, mem_allGaps_compound.mpr (.inr ⟨_, hkept, hx⟩), hxu⟩
    · have hnil := Construct.statements_eq_nil_of_emptied targets policy hmem hemptied
      exact ⟨x, mem_allGaps_compound.mpr (.inr ⟨_, hfilled, (Clause.mem_gaps_fill hnil).mpr hx⟩),
        hxu⟩
    · rw [Clause.span_prune] at hdropped
      exact ⟨cl.span, mem_allGaps_compound.mpr (.inl hdropped),
        ((hc'.clauses cl hcl).contains s hs).trans (hcontains s hs u hu)⟩

/-! ### Gaps in the text -/

theorem Block.isPart_of_mem_gaps_prune_of {b : Block} (hlaid : b.IsLaidOut t)
    (hexcised : b.excised = [])
    (h : ∀ s ∈ b.statements, ∀ kept ∈ (s.prune targets policy).1, ∀ x ∈ kept.allGaps, x.IsPart t) :
    ∀ x ∈ (b.prune targets policy).1.gaps, x.IsPart t := by
  intro x hx
  rcases mem_gaps_iff.mp hx with hgone | ⟨kept, hkept, hinner⟩
  · rw [excised_prune, hexcised, List.nil_append] at hgone
    obtain ⟨s, hs, rfl⟩ := List.mem_map.mp hgone
    exact (hlaid.code s (List.mem_filter.mp hs).1).isPart
  · rw [statements_prune] at hkept
    obtain ⟨s, hs, hprune⟩ := List.mem_filterMap.mp hkept
    exact h s hs kept hprune x hinner

/-- What goes from a statement was a part of the text. -/
theorem Statement.isPart_of_mem_allGaps_prune (s : Statement) (hlaid : ∀ u ∈ s.all, u.IsLaidOut t)
    (hfresh : ∀ u ∈ s.all, u.IsFresh) :
    ∀ kept ∈ (s.prune targets policy).1, ∀ x ∈ kept.allGaps, x.IsPart t := by
  induction s using Statement.induct with
  | expression span value =>
    rw [prune]
    split_ifs
    · rintro kept ⟨⟩
    · rintro kept ⟨⟩
      rw [allGaps_expression]
      exact fun x hx ↦ (List.not_mem_nil hx).elim
  | placeholder span => exact (hfresh _ (mem_all_self _)).elim
  | inert span type =>
    rw [prune]
    rintro kept ⟨⟩
    rw [allGaps_inert]
    exact fun x hx ↦ (List.not_mem_nil hx).elim
  | compound c ih =>
    obtain ⟨hc, hinner⟩ := forall_all_compound.mp hlaid
    obtain ⟨hcfresh, hfreshInner⟩ := forall_all_compound.mp hfresh
    have hc' : c.IsLaidOut t := hc
    have hcfresh' : c.IsFresh := hcfresh
    rw [fst_prune_compound]
    intro kept hkept x hx
    obtain ⟨d, hsettle, rfl⟩ := Option.map_eq_some_iff.mp hkept
    have hpruned : ∀ cl ∈ c.clauses, ∀ x ∈ (cl.prune targets policy).1.body.gaps, x.IsPart t := by
      intro cl hcl
      rw [Clause.body_prune]
      exact Block.isPart_of_mem_gaps_prune_of (hc'.clauses cl hcl).body (hcfresh'.excised cl hcl)
        fun s hs ↦ ih cl hcl s hs (hinner cl hcl s hs) (hfreshInner cl hcl s hs)
    rcases mem_allGaps_compound.mp hx with hdropped | ⟨cl, hcl, hbody⟩
    · have hplace :=
        ((Construct.places_settle hsettle).trans
          (.of_eq (Construct.places_pruneInner c))).mem_iff.mp (List.mem_append_right _ hdropped)
      rw [Construct.places, hcfresh'.dropped, List.append_nil] at hplace
      obtain ⟨cl, hcl, rfl⟩ := List.mem_map.mp hplace
      exact (hc'.clauses cl hcl).code.isPart
    · obtain ⟨-, -, hsettles⟩ := Construct.settles_of_settle hsettle
      refine hsettles.forall_clauses (P := fun cl ↦ ∀ x ∈ cl.body.gaps, x.IsPart t)
        (List.forall_mem_map.mpr hpruned) (List.forall_mem_map.mpr fun cl hcl hemptied y hy ↦ ?_)
          cl hcl x hbody
      have hnil :=
        Construct.statements_eq_nil_of_emptied targets policy (List.mem_map_of_mem hcl) hemptied
      exact hpruned cl hcl y ((Clause.mem_gaps_fill hnil).mp hy)

end Pruning

/-! ### Trees -/

/-- A call is spelt with a parenthesis. -/
def Statement.IsSpelt (t : Text) : Statement → Prop
  | .expression span (.call ..) => CodeUnit.ofChar '(' ∈ span.read t
  | _ => True

instance (t : Text) : (s : Statement) → Decidable (s.IsSpelt t)
  | .expression span (.call ..) => inferInstanceAs (Decidable (CodeUnit.ofChar '(' ∈ span.read t))
  | .expression _ (.name ..) | .expression _ (.field ..) | .expression _ (.other ..) | .compound _
  | .placeholder _ | .inert .. => inferInstanceAs (Decidable True)

namespace Tree

/-- Every call that is a statement of the tree is spelt with a parenthesis in its source. -/
def IsSpelt (tree : Tree) : Prop := ∀ s ∈ tree.body.all, s.IsSpelt tree.source

instance (tree : Tree) : Decidable tree.IsSpelt := List.decidableBAll _ _

variable {targets : TargetSet} {policy : Policy} {tree : Tree} {text : Text} {u : Statement}

theorem IsSpelt.mem_read (h : tree.IsSpelt) (hu : u ∈ tree.body.all)
    (hhit : targets.isHit u = true) :
    CodeUnit.ofChar '(' ∈ u.span.read tree.source := by
  have hspelt := h u hu
  cases u with
  | expression span value =>
    cases value with
    | call => exact hspelt
    | name => exact Bool.noConfusion hhit
    | field => exact Bool.noConfusion hhit
    | other => exact Bool.noConfusion hhit
  | compound => exact Bool.noConfusion hhit
  | placeholder => exact Bool.noConfusion hhit
  | inert => exact Bool.noConfusion hhit

/-- Every call to a target is inside a gap of the pruned tree. -/
theorem exists_gap_prune (hlaid : tree.IsLaidOut) (hu : u ∈ tree.body.all)
    (hhit : targets.isHit u = true) :
    ∃ x ∈ (tree.prune targets policy).1.body.gaps, x.Contains u.span := by
  have htargets : targets.paths ≠ [] := fun hnil ↦
    Bool.noConfusion ((TargetSet.isHit_eq_false hnil u).symm.trans hhit)
  have hlaidAll := Block.forall_all.mp hlaid.statements
  rw [prune_of_ne_nil htargets]
  exact Block.exists_gap_prune_of (fun s hs ↦ s.contains_of_mem_all (hlaidAll s hs))
    (fun s hs ↦ s.exists_gap_prune (hlaidAll s hs)) u hu hhit

/-- Nothing is missing in a fresh tree. -/
theorem IsFresh.gaps (hfresh : tree.IsFresh) : tree.body.gaps = [] := by
  rw [Block.gaps, hfresh.excised, List.nil_append, List.flatMap_eq_nil_iff]
  exact fun s hs ↦ (hfresh.statements s hs).gaps

theorem isPart_of_mem_gaps_prune (hfresh : tree.IsFresh) (hlaid : tree.IsLaidOut) :
    ∀ x ∈ (tree.prune targets policy).1.body.gaps, x.IsPart tree.source := by
  by_cases htargets : targets.paths = []
  · rw [prune, if_pos (by simpa using htargets), hfresh.gaps]
    exact fun _ hx ↦ (List.not_mem_nil hx).elim
  · have hlaidAll := Block.forall_all.mp hlaid.statements
    have hfreshAll := Block.forall_all.mp hfresh.statements
    rw [prune_of_ne_nil htargets]
    exact Block.isPart_of_mem_gaps_prune_of hlaid.body hfresh.excised fun s hs ↦
      s.isPart_of_mem_allGaps_prune (hlaidAll s hs) (hfreshAll s hs)

/-- A text from which a call was taken holds fewer parentheses than before: the call was spelt with
one, and nothing that is written holds any. -/
theorem count_render_prune_lt (hfresh : tree.IsFresh) (hlaid : tree.IsLaidOut)
    (hspelt : tree.IsSpelt) (hu : u ∈ tree.body.all) (hhit : targets.isHit u = true)
    (h : (tree.prune targets policy).1.render = .ok text) :
    text.count (CodeUnit.ofChar '(') < tree.source.count (CodeUnit.ofChar '(') := by
  obtain ⟨edits, hedits, happly⟩ := Except.bind_eq_ok_iff.mp h
  have hconfined := confined_prune hfresh hlaid hedits
  rw [Tree.edits, source_prune] at hedits
  rw [source_prune, Except.mapError_eq_ok_iff] at happly
  obtain ⟨x, hx, hcontains⟩ : ∃ x ∈ (tree.prune targets policy).1.body.gaps, x.Contains u.span :=
    exists_gap_prune hlaid hu hhit
  obtain ⟨e, he, hcovers⟩ :=
    Edit.exists_covers_ofBlock (isPart_of_mem_gaps_prune hfresh hlaid) hedits x hx
  have hmem := (hcovers.mono hcontains).read_subset (hspelt.mem_read hu hhit)
  refine Edit.countP_applyAll_lt hconfined.fits hconfined.apart (fun f hf ↦ ?_)
    ⟨e, he, List.countP_pos_iff.mpr ⟨_, hmem, beq_self_eq_true _⟩⟩ happly
  rcases (Edit.fills_ofBlock hedits f hf).text_cases with htext | htext
  · rw [htext]
    rfl
  · rw [htext]
    rfl

end Tree

end Declutter
