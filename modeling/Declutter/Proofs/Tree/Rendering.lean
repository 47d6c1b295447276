import Declutter.Proofs.Tree.Places
import Declutter.Proofs.Tree.Runs
/-!
Writing a pruned tree back touches only what was removed. Every statement that stays occupies a part
of the text, its lines if it is compound and its span otherwise, and its edits are confined to that
part and leave the code in it alone (`Statement.IsConfined`). That is shown from the inside out, for
blocks (`Block.IsArranged.confined`), clauses (`Clause.confined`) and constructs
(`Construct.confined`).

So the edits of a pruned tree never overlap, and what is left of the code stands in the result unit
by unit (`Tree.render_prune`).
-/

set_option autoImplicit false
set_option relaxedAutoImplicit false

namespace Declutter

open scoped List

variable {t : Text} {part : Span} {edits : List Edit}

/-! ### The code of a statement -/

/-- The spans whose text is the statement's own: a leaf as a whole, the headers of a compound
statement. -/
def Statement.Owns (t : Text) : Statement → Span → Prop
  | .expression span _, s | .inert span _, s => s = span
  | .compound c, s => ∃ cl ∈ c.clauses, cl.IsHeader t s
  | .placeholder _, _ => False

instance (t : Text) : (s : Statement) → (p : Span) → Decidable (s.Owns t p)
  | .expression span _, p | .inert span _, p => inferInstanceAs (Decidable (p = span))
  | .compound c, p => inferInstanceAs (Decidable (∃ cl ∈ c.clauses, cl.IsHeader t p))
  | .placeholder _, _ => inferInstanceAs (Decidable False)

/-- The spans of code in the statement, at any depth. -/
def Statement.Holds (t : Text) (s : Statement) (p : Span) : Prop := ∃ u ∈ s.all, u.Owns t p

/-- The spans of code in the block, at any depth. -/
def Block.Holds (t : Text) (b : Block) (p : Span) : Prop := ∃ s ∈ b.statements, s.Holds t p

theorem Block.holds_iff {b : Block} {p : Span} : b.Holds t p ↔ ∃ s ∈ b.all, s.Owns t p := by
  simp only [Holds, Statement.Holds, Block.all_eq, List.mem_flatMap]
  exact ⟨fun ⟨s, hs, u, hu, hp⟩ ↦ ⟨u, ⟨s, hs, hu⟩, hp⟩, fun ⟨u, ⟨s, hs, hu⟩, hp⟩ ↦
    ⟨s, hs, u, hu, hp⟩⟩

theorem Statement.holds_compound {c : Construct} {p : Span} :
    (Statement.compound c).Holds t p ↔ ∃ cl ∈ c.clauses, cl.IsHeader t p ∨ cl.body.Holds t p := by
  simp only [Holds, all_compound, List.exists_mem_cons_iff, Owns, Construct.inner_eq,
    List.mem_flatMap, Block.holds_iff]
  constructor
  · rintro (⟨cl, hcl, hheader⟩ | ⟨u, ⟨cl, hcl, hu⟩, hp⟩)
    · exact ⟨cl, hcl, .inl hheader⟩
    · exact ⟨cl, hcl, .inr ⟨u, hu, hp⟩⟩
  · rintro ⟨cl, hcl, hheader | ⟨u, hu, hp⟩⟩
    · exact .inl ⟨cl, hcl, hheader⟩
    · exact .inr ⟨u, ⟨cl, hcl, hu⟩, hp⟩

/-! ### Parts of the text -/

/-- The lines that belong to a compound statement or a clause with the span. -/
def Span.lines (t : Text) (s : Span) : Span := ⟨t.lead s.start, t.nextLine s.stop⟩

/-- The part of the text that a statement occupies. -/
def Statement.reach (t : Text) : Statement → Span
  | .compound c => c.span.lines t
  | .expression span _ | .placeholder span | .inert span _ => span

/-- A statement whose edits stay in the part that it occupies and leave the code in it alone. -/
structure Statement.IsConfined (t : Text) (s : Statement) : Prop where
  occupies : s.span.Occupies t (s.reach t)
  confined : ∀ edits, Edit.ofStatement t s = .ok edits → Edit.Confined (s.reach t) (s.Holds t) edits

/-! ### Blocks -/

/-- The statements of a block and those excised from it are beside each other in a part of the
text. -/
structure Block.IsArranged (t : Text) (part : Span) (b : Block) : Prop where
  fenced : ∀ s ∈ b.places, s.IsFenced t
  beside : b.places.Pairwise (Span.Beside t)
  floor : t.IsFloor part.start
  encloses : ∀ s ∈ b.places, part.Encloses t s

namespace Block.IsArranged

variable {b b' : Block}

theorem perm (h : b.IsArranged t part) (hplaces : b'.places ~ b.places) : b'.IsArranged t part where
  fenced s hs := h.fenced s (hplaces.mem_iff.mp hs)
  beside := hplaces.symm.pairwise h.beside fun hab ↦ Std.Symm.symm _ _ hab
  floor := h.floor
  encloses s hs := h.encloses s (hplaces.mem_iff.mp hs)

/-- The edits of a block are confined to the part of the text around it, if those of its statements
are. -/
theorem confined (h : b.IsArranged t part) (hstatements : ∀ s ∈ b.statements, s.IsConfined t)
    (hedits : Edit.ofBlock t b = .ok edits) : Edit.Confined part (b.Holds t) edits := by
  obtain ⟨span, statements, excised, emptied⟩ := b
  obtain ⟨own, edit, hown, hedit, rfl⟩ := Edit.exists_of_ofBlock hedits
  obtain ⟨hstay, hexcised, hcross⟩ := List.pairwise_append.mp h.beside
  have hfenced : ∀ s ∈ statements, s.span.IsFenced t := fun s hs ↦
    h.fenced s.span (List.mem_append_left _ (List.mem_map_of_mem hs))
  have hfencedExcised : ∀ x ∈ excised, x.IsFenced t :=
    fun x hx ↦ h.fenced x (List.mem_append_right _ hx)
  have hdeletions := Edit.confined_deletions hfencedExcised hexcised h.floor
    (fun x hx ↦ h.encloses x (List.mem_append_right _ hx)) hown
  refine .append_flatMap hdeletions (fun s hs ↦ (hstatements s hs).confined _ (hedit s hs)) ?_ ?_ ?_
  · intro s hs
    have hencloses := h.encloses s.span (List.mem_append_left _ (List.mem_map_of_mem hs))
    have hoccupies := (hstatements s hs).occupies
    exact ⟨(h.floor.le_lead hencloses.start).trans hoccupies.start,
      (hoccupies.advances.le_nextLine (hfenced s hs).length).trans hencloses.stop⟩
  · refine (List.pairwise_map.mp hstay).imp_of_mem fun {a b} ha hb hbeside ↦ ?_
    exact hbeside.imp
      (·.occupied_le (hfenced a ha) (hfenced b hb) (hstatements a ha).occupies
        (hstatements b hb).occupies)
      (·.occupied_le (hfenced b hb) (hfenced a ha) (hstatements b hb).occupies
        (hstatements a ha).occupies)
  · intro e he s hs
    exact Edit.spares_occupied hfencedExcised hown (hfenced s hs)
      (hcross _ (List.mem_map_of_mem hs)) (hstatements s hs).occupies e he

end Block.IsArranged

/-! ### Clauses -/

namespace Clause

/-- What is left of a clause: the clause where it was, with a block that has the same places. -/
structure IsLeft (t : Text) (cl left : Clause) : Prop where
  span : left.span = cl.span
  bodySpan : left.body.span = cl.body.span
  places : left.body.places ~ cl.body.places
  statements : ∀ s ∈ left.body.statements, s.IsConfined t

variable {cl left : Clause}

/-- A clause that is left without a statement is still left when it is filled. -/
theorem IsLeft.fill (h : cl.IsLeft t left) (hnil : left.body.statements = [])
    (hexcised : ∀ x ∈ left.body.excised, (Statement.placeholder x).IsConfined t) :
    cl.IsLeft t left.fill.1 where
  span := left.span_fill.trans h.span
  bodySpan := left.bodySpan_fill.trans h.bodySpan
  places := places_fill hnil ▸ h.places
  statements := forall_statements_fill hexcised h.statements

/-- In a clause from which nothing was removed yet, the statements are arranged in its lines after
any floor before its block. -/
theorem IsLaidOut.isArranged {i : Nat} (h : cl.IsLaidOut t) (hexcised : cl.body.excised = [])
    (hfenced : ∀ s ∈ cl.body.statements, s.span.IsFenced t) (hfloor : t.IsFloor i)
    (hi : i ≤ cl.body.span.start) : cl.body.IsArranged t ⟨i, t.nextLine cl.span.stop⟩ := by
  have hplaces : cl.body.places = cl.body.statements.map (·.span) := by
    rw [Block.places, hexcised, List.append_nil]
  have hfenced' : ∀ s ∈ cl.body.statements.map (·.span), s.IsFenced t :=
    List.forall_mem_map.mpr hfenced
  refine ⟨hplaces ▸ hfenced', ?_, hfloor, ?_⟩
  · rw [hplaces]
    exact (Span.pairwise_precedes hfenced' h.body.follows).imp .inl
  · rw [hplaces]
    refine List.forall_mem_map.mpr fun s hs ↦ ?_
    obtain ⟨hstart, hstop⟩ := h.statements s hs
    exact ⟨hi.trans hstart, Text.nextLine_mono (hstop.trans h.body_stop_le)⟩

/-- The edits of what is left of a clause are confined to the lines of the clause, and they leave
its header alone. -/
theorem IsLeft.confined (h : cl.IsLeft t left) (hlaid : cl.IsLaidOut t)
    (hexcised : cl.body.excised = []) (hne : cl.body.statements ≠ [])
    (hfenced : ∀ s ∈ cl.body.statements, s.span.IsFenced t)
    (hedits : Edit.ofBlock t left.body = .ok edits) :
    Edit.Confined (left.span.lines t) (fun p ↦ left.IsHeader t p ∨ left.body.Holds t p) edits := by
  have hafter : ∀ colon < cl.body.span.start, t.hasAt (· == ':') colon = true →
      Edit.Confined ⟨colon + 1, t.nextLine cl.span.stop⟩ (left.body.Holds t) edits := by
    intro colon hlt hcolon
    have hsolid : t.hasAt CodeUnit.isSolid colon = true := Text.hasAt_mono (fun u hu ↦ by
      rw [beq_iff_eq] at hu
      rw [hu]
      rfl) hcolon
    have hfloor : t.IsFloor (colon + 1) := fun k hk ↦ Nat.succ.inj hk ▸ hsolid
    exact ((hlaid.isArranged hexcised hfenced hfloor hlt).perm h.places).confined
      h.statements hedits
  obtain ⟨_, -, colon, -, hle, hlt, hcolon⟩ := hlaid.header
  have hbase := hafter colon hlt hcolon
  have hlead : t.lead cl.span.start ≤ cl.span.start := t.lead_le _
  have hstop := Text.le_nextLine hlaid.code.length
  have hbody : cl.body.span.start < cl.span.stop := by
    obtain ⟨s, hs⟩ := List.exists_mem_of_ne_nil _ hne
    obtain ⟨hstart, hstop⟩ := hlaid.statements s hs
    exact (hstart.trans_lt (hfenced s hs).lt).trans_le (hstop.trans hlaid.body_stop_le)
  rw [h.span]
  refine ⟨hbase.proper, fun e he ↦ ?_, hbase.apart, ?_, ?_⟩
  · have hinside := hbase.inside e he
    dsimp only [Span.lines] at hinside ⊢
    omega
  · rintro p (⟨hstart, colon', hpstop, hle', hlt', -⟩ | hp)
    · rw [h.span] at hstart hle'
      rw [h.bodySpan] at hlt'
      dsimp only [Span.lines]
      omega
    · have hreaches := hbase.reaches p hp
      dsimp only [Span.lines] at hreaches ⊢
      omega
  · rintro p (⟨hstart, colon', hpstop, hle', hlt', hcolon'⟩ | hp) e he
    · rw [h.bodySpan] at hlt'
      have hinside := ((hafter colon' hlt' hcolon').inside e he).1
      exact .inr (hpstop ▸ hinside)
    · exact hbase.spares p hp e he

end Clause

/-! ### Constructs -/

/-- Clauses that are laid out do not share lines. -/
theorem Span.pairwise_lines {spans : List Span} (hcode : ∀ s ∈ spans, s.IsCode t)
    (hcloses : ∀ s ∈ spans, t.closesLine s.stop = true) (h : spans.IsChain (Span.Follows t)) :
    spans.Pairwise fun a b ↦ t.nextLine a.stop ≤ t.lineStart b.start := by
  induction spans with
  | nil => exact .nil
  | cons a rest ih =>
    rw [List.forall_mem_cons] at hcode hcloses
    cases rest with
    | nil => exact List.pairwise_singleton _ _
    | cons b rest =>
      rw [List.isChain_cons_cons] at h
      have hrest := ih hcode.2 hcloses.2 h.2
      have hb := (List.forall_mem_cons.mp hcode.2).1
      obtain ⟨n, hn, han, hnewline⟩ :=
        Text.exists_newline_of_closesLine hcloses.1 h.1.le hb.first h.1.uncommented
      have hab : t.nextLine a.stop ≤ t.lineStart b.start :=
        Text.nextLine_le_lineStart han hn hnewline
      refine List.pairwise_cons.mpr ⟨List.forall_mem_cons.mpr ⟨hab, fun c hc ↦ ?_⟩, hrest⟩
      have hbc := (List.pairwise_cons.mp hrest).1 c hc
      exact hab.trans ((t.lineStart_le _).trans
        (hb.lt.le.trans ((Text.le_nextLine hb.length).trans hbc)))

namespace Construct

variable {c d : Construct}

/-- The edits of what is left of a construct are confined to the lines of the construct. -/
theorem confined (hlaid : c.IsLaidOut t) (hcode : c.span.IsCode t) (hspan : d.span = c.span)
    (hplaces : d.places ~ c.clauses.map (·.span))
    (hclauses : ∀ cl ∈ d.clauses, ∀ edits, Edit.ofBlock t cl.body = .ok edits →
      Edit.Confined (cl.span.lines t) (fun p ↦ cl.IsHeader t p ∨ cl.body.Holds t p) edits)
    (hedits : Edit.ofConstruct t d = .ok edits) :
    Edit.Confined (d.span.lines t) ((Statement.compound d).Holds t) edits := by
  obtain ⟨kind, span, clauses, dropped⟩ := d
  obtain ⟨edit, deletion, hedit, hdeletion, rfl⟩ := Edit.exists_of_ofConstruct hedits
  obtain rfl : span = c.span := hspan
  have hcodes : ∀ x ∈ c.clauses.map (·.span), x.IsCode t :=
    List.forall_mem_map.mpr fun cl hcl ↦ (hlaid.clauses cl hcl).code
  have hcloses : ∀ x ∈ c.clauses.map (·.span), t.closesLine x.stop = true :=
    List.forall_mem_map.mpr fun cl hcl ↦ (hlaid.clauses cl hcl).closes
  have hinside : ∀ x ∈ c.clauses.map (·.span),
      t.lead c.span.start ≤ t.lead x.start ∧ t.nextLine x.stop ≤ t.nextLine c.span.stop := by
    refine List.forall_mem_map.mpr fun cl hcl ↦ ?_
    obtain ⟨hstart, hstop⟩ := hlaid.inside cl hcl
    have hfirst := Text.not_blank_of_isSolid hcode.first
    exact ⟨Text.lead_le_lead hstart (Text.lt_length_of_hasAt hcode.first) hfirst,
      Text.nextLine_mono hstop⟩
  -- no two clauses, there or dropped, share a line
  have hlines := (Span.pairwise_lines hcodes hcloses hlaid.follows).imp fun {a b} hab ↦
    (Or.inl hab : _ ∨ t.nextLine b.stop ≤ t.lineStart a.start)
  have hplaced := hplaces.symm.pairwise hlines Or.symm
  obtain ⟨hkept, hdropped, hcross⟩ := List.pairwise_append.mp hplaced
  have hkeptMem : ∀ cl ∈ clauses, cl.span ∈ c.clauses.map (·.span) := fun cl hcl ↦
    hplaces.mem_iff.mp (List.mem_append_left _ (List.mem_map_of_mem hcl))
  have hdroppedMem : ∀ x ∈ dropped, x ∈ c.clauses.map (·.span) := fun x hx ↦
    hplaces.mem_iff.mp (List.mem_append_right _ hx)
  have hlead : ∀ x : Span, t.lineStart x.start ≤ t.lead x.start := fun x ↦ t.lineStart_le_lead _
  have hdeleted : ∀ x ∈ dropped, deletion x = .deletion (t.lead x.start) (t.nextLine x.stop) ∧
      t.lead x.start = t.lineStart x.start := by
    intro x hx
    obtain ⟨heq, hblank⟩ := Edit.deleteClause_eq_ok (hdeletion x hx)
    have hleadStart : t.lead x.start = t.lineStart x.start := if_pos hblank
    exact ⟨hleadStart ▸ heq, hleadStart⟩
  have hown : Edit.Confined (c.span.lines t) (fun _ ↦ False) (dropped.map deletion) := by
    refine ⟨?_, ?_, ?_, fun _ hs ↦ hs.elim, fun _ hs ↦ hs.elim⟩
    · refine List.forall_mem_map.mpr fun x hx ↦ ?_
      have hcodex := hcodes x (hdroppedMem x hx)
      have hlt := (t.lead_le x.start).trans_lt (hcodex.lt.trans_le (Text.le_nextLine hcodex.length))
      rw [(hdeleted x hx).1]
      exact Int.ofNat_lt.mpr hlt
    · refine List.forall_mem_map.mpr fun x hx ↦ ?_
      rw [(hdeleted x hx).1]
      exact (hinside x (hdroppedMem x hx)).imp Int.ofNat_le.mpr Int.ofNat_le.mpr
    · refine List.pairwise_map.mpr (hdropped.imp_of_mem fun {x y} hx hy hxy ↦ ?_)
      rw [(hdeleted x hx).1, (hdeleted y hy).1, (hdeleted x hx).2, (hdeleted y hy).2]
      exact hxy.imp Int.ofNat_le.mpr Int.ofNat_le.mpr
  have hholds : (Statement.compound ⟨kind, c.span, clauses, dropped⟩).Holds t =
      fun p ↦ ∃ cl ∈ clauses, cl.IsHeader t p ∨ cl.body.Holds t p :=
    funext fun p ↦ propext Statement.holds_compound
  rw [hholds]
  refine Edit.Confined.perm (.append_flatMap hown (fun cl hcl ↦ hclauses cl hcl _ (hedit cl hcl))
    (fun cl hcl ↦ hinside _ (hkeptMem cl hcl)) ?_ ?_) List.perm_append_comm
  · exact (List.pairwise_map.mp hkept).imp fun {a b} hab ↦
      hab.imp (·.trans (hlead b.span)) (·.trans (hlead a.span))
  · refine List.forall_mem_map.mpr fun x hx cl hcl ↦ ?_
    rw [(hdeleted x hx).1, (hdeleted x hx).2]
    rcases hcross _ (List.mem_map_of_mem hcl) x hx with hbefore | hafter
    · exact .inr (Int.ofNat_le.mpr hbefore)
    · exact .inl (Int.ofNat_le.mpr (hafter.trans (hlead cl.span)))

end Construct

/-! ### Statements -/

namespace Statement

/-- A leaf has no edits. -/
theorem isConfined_leaf {s : Statement} (hedits : Edit.ofStatement t s = .ok [])
    (hreach : s.reach t = s.span) (hholds : ∀ p, s.Holds t p → p = s.span)
    (hcode : s.span.IsCode t) : s.IsConfined t := by
  refine ⟨⟨hreach.symm ▸ t.lead_le _, .inl (congrArg Span.stop hreach)⟩, fun edits h ↦ ?_⟩
  obtain rfl := Except.ok.inj (hedits.symm.trans h)
  refine ⟨by simp, by simp, .nil, fun p hp ↦ ?_, by simp⟩
  rw [hholds p hp, hreach]
  exact ⟨le_rfl, hcode.lt.le, le_rfl⟩

theorem isConfined_expression {span : Span} (value : Expression) (hcode : span.IsCode t) :
    (Statement.expression span value).IsConfined t :=
  isConfined_leaf (by rw [Edit.ofStatement]) rfl (by simp [Holds, Owns, Statement.span]) hcode

theorem isConfined_inert {span : Span} (type : Text) (hcode : span.IsCode t) :
    (Statement.inert span type).IsConfined t :=
  isConfined_leaf (by rw [Edit.ofStatement]) rfl (by simp [Holds, Owns, Statement.span]) hcode

/-- A placeholder replaces the statement that it stands for. -/
theorem isConfined_placeholder {span : Span} (hlt : span.start < span.stop) :
    (Statement.placeholder span).IsConfined t := by
  refine ⟨⟨t.lead_le _, .inl rfl⟩, fun edits h ↦ ?_⟩
  rw [Edit.ofStatement] at h
  obtain rfl := Except.ok.inj h
  refine ⟨?_, ?_, List.pairwise_singleton _ _, by simp [Holds, Owns], by simp [Holds, Owns]⟩
  · exact List.forall_mem_singleton.mpr (Int.ofNat_lt.mpr hlt)
  · exact List.forall_mem_singleton.mpr ⟨Int.le_refl _, Int.le_refl _⟩

end Statement

/-- What is left of a construct is confined. -/
theorem Construct.isConfined {c d : Construct} (hlaid : c.IsLaidOut t) (hfresh : c.IsFresh)
    (hcode : c.span.IsCode t)
    (hfenced : ∀ cl ∈ c.clauses, ∀ s ∈ cl.body.statements, s.span.IsFenced t)
    (hspan : d.span = c.span) (hplaces : d.places ~ c.clauses.map (·.span))
    (hleft : ∀ left ∈ d.clauses, ∃ cl ∈ c.clauses, cl.IsLeft t left) :
    (Statement.compound d).IsConfined t := by
  refine ⟨⟨le_rfl, .inr ⟨?_, rfl⟩⟩, fun edits hedits ↦ ?_⟩
  · exact (congrArg (t.closesLine ·.stop) hspan).trans hlaid.closes
  · rw [Edit.ofStatement] at hedits
    refine confined hlaid hcode hspan hplaces (fun left hmem inner hinner ↦ ?_) hedits
    obtain ⟨cl, hcl, hcl'⟩ := hleft left hmem
    exact hcl'.confined (hlaid.clauses cl hcl) (hfresh.excised cl hcl) (hfresh.statements cl hcl)
      (hfenced cl hcl) hinner

/-- The statements in the clauses of a construct that is laid out are code, and fenced. -/
theorem Construct.IsLaidOut.isFenced {c : Construct} (hlaid : c.IsLaidOut t)
    (hlaidInner : ∀ cl ∈ c.clauses, ∀ s ∈ cl.body.statements, ∀ u ∈ s.all, u.IsLaidOut t)
    (hfreshInner : ∀ cl ∈ c.clauses, ∀ s ∈ cl.body.statements, ∀ u ∈ s.all, u.IsFresh) :
    ∀ cl ∈ c.clauses, ∀ s ∈ cl.body.statements, s.span.IsFenced t := fun cl hcl s hs ↦
  (hlaidInner cl hcl s hs s s.mem_all_self).isFenced (hfreshInner cl hcl s hs s s.mem_all_self)
    ((hlaid.clauses cl hcl).body.code s hs)

/-- A statement from which nothing was taken is confined. -/
theorem Statement.isConfined_of_isFresh (s : Statement) (hcode : s.span.IsCode t)
    (hlaid : ∀ u ∈ s.all, u.IsLaidOut t) (hfresh : ∀ u ∈ s.all, u.IsFresh) : s.IsConfined t := by
  induction s using Statement.induct with
  | expression span value => exact isConfined_expression value hcode
  | placeholder span => exact (hfresh _ (mem_all_self _)).elim
  | inert span type => exact isConfined_inert type hcode
  | compound c ih =>
    obtain ⟨hc, hlaidInner⟩ := forall_all_compound.mp hlaid
    obtain ⟨hcfresh, hfreshInner⟩ := forall_all_compound.mp hfresh
    have hc' : c.IsLaidOut t := hc
    have hcfresh' : c.IsFresh := hcfresh
    refine Construct.isConfined hc' hcfresh' hcode (hc'.isFenced hlaidInner hfreshInner) rfl ?_
      fun cl hcl ↦ ?_
    · rw [Construct.places, hcfresh'.dropped, List.append_nil]
    · exact ⟨cl, hcl, rfl, rfl, .rfl,
        fun s hs ↦ ih cl hcl s hs ((hc'.clauses cl hcl).body.code s hs) (hlaidInner cl hcl s hs)
          (hfreshInner cl hcl s hs)⟩

/-! ### Pruning -/

section Pruning

variable {targets : TargetSet} {policy : Policy}

/-- Pruning leaves a clause where it was, with all places in its block. -/
theorem Clause.isLeft_prune {cl : Clause}
    (h : ∀ s ∈ cl.body.statements, ∀ kept ∈ (s.prune targets policy).1, kept.IsConfined t) :
    cl.IsLeft t (cl.prune targets policy).1 where
  span := cl.span_prune targets policy
  bodySpan := by
    rw [body_prune]
    cases cl.body
    rw [Block.prune]
  places := cl.body_prune targets policy ▸ cl.body.places_prune
  statements := by
    rw [body_prune, Block.statements_prune]
    intro kept hkept
    obtain ⟨s, hs, hprune⟩ := List.mem_filterMap.mp hkept
    exact h s hs kept hprune

theorem Construct.isConfined_of_settle {c d : Construct} (hlaid : c.IsLaidOut t)
    (hfresh : c.IsFresh) (hcode : c.span.IsCode t)
    (hfenced : ∀ cl ∈ c.clauses, ∀ s ∈ cl.body.statements, s.span.IsFenced t)
    (hstatements : ∀ cl ∈ c.clauses, ∀ s ∈ cl.body.statements, ∀ kept ∈ (s.prune targets policy).1,
      kept.IsConfined t)
    (h : ((c.pruneInner targets policy).settle policy).1 = some d) :
    (Statement.compound d).IsConfined t := by
  obtain ⟨-, hspan, hsettles⟩ := settles_of_settle h
  have hplaces : d.places ~ c.clauses.map (·.span) := by
    have hpruned := (places_settle h).trans (.of_eq (places_pruneInner c))
    rwa [places.eq_def c, hfresh.dropped, List.append_nil] at hpruned
  refine isConfined hlaid hfresh hcode hfenced hspan hplaces (hsettles.forall_clauses ?_ ?_)
  · exact List.forall_mem_map.mpr fun cl hcl ↦ ⟨cl, hcl, Clause.isLeft_prune (hstatements cl hcl)⟩
  · refine List.forall_mem_map.mpr fun cl hcl hemptied ↦ ⟨cl, hcl, ?_⟩
    have hprune := Clause.isLeft_prune (hstatements cl hcl)
    have hnil := statements_eq_nil_of_emptied targets policy (List.mem_map_of_mem hcl) hemptied
    refine hprune.fill hnil fun x hx ↦ Statement.isConfined_placeholder ?_
    have hplace := hprune.places.mem_iff.mp (List.mem_append_right _ hx)
    rw [Block.places, hfresh.excised cl hcl, List.append_nil] at hplace
    obtain ⟨s, hs, rfl⟩ := List.mem_map.mp hplace
    exact (hfenced cl hcl s hs).lt

/-- What is left of a statement is confined, whatever was taken out of it. -/
theorem Statement.isConfined_prune (s : Statement) (hcode : s.span.IsCode t)
    (hlaid : ∀ u ∈ s.all, u.IsLaidOut t) (hfresh : ∀ u ∈ s.all, u.IsFresh) :
    ∀ kept ∈ (s.prune targets policy).1, kept.IsConfined t := by
  induction s using Statement.induct with
  | expression span value =>
    rw [prune]
    split_ifs
    · rintro kept ⟨⟩
    · rintro kept ⟨⟩
      exact isConfined_expression value hcode
  | placeholder span => exact (hfresh _ (mem_all_self _)).elim
  | inert span type =>
    rw [prune]
    rintro kept ⟨⟩
    exact isConfined_inert type hcode
  | compound c ih =>
    obtain ⟨hc, hlaidInner⟩ := forall_all_compound.mp hlaid
    obtain ⟨hcfresh, hfreshInner⟩ := forall_all_compound.mp hfresh
    have hc' : c.IsLaidOut t := hc
    rw [fst_prune_compound]
    intro kept hkept
    obtain ⟨d, hsettle, rfl⟩ := Option.map_eq_some_iff.mp hkept
    exact Construct.isConfined_of_settle hc' hcfresh hcode (hc'.isFenced hlaidInner hfreshInner)
      (fun cl hcl s hs ↦
        ih cl hcl s hs ((hc'.clauses cl hcl).body.code s hs) (hlaidInner cl hcl s hs)
          (hfreshInner cl hcl s hs)) hsettle

end Pruning

/-! ### Trees -/

namespace Tree

variable {targets : TargetSet} {policy : Policy} {tree : Tree}

/-- The text that a tree is written back to keeps the source of the tree. -/
theorem source_prune : (tree.prune targets policy).1.source = tree.source := by
  rw [prune]
  split_ifs <;> rfl

/-- The edits of a pruned tree are confined to its source. -/
theorem confined_prune (hfresh : tree.IsFresh) (hlaid : tree.IsLaidOut)
    (hedits : (tree.prune targets policy).1.edits = .ok edits) :
    Edit.Confined ⟨0, tree.source.length⟩ ((tree.prune targets policy).1.body.Holds tree.source)
      edits := by
  have hlaidAll := Block.forall_all.mp hlaid.statements
  have hfreshAll := Block.forall_all.mp hfresh.statements
  have hplaces : tree.body.places = tree.body.statements.map (·.span) := by
    rw [Block.places, hfresh.excised, List.append_nil]
  have hfenced : ∀ s ∈ tree.body.statements.map (·.span), s.IsFenced tree.source :=
    List.forall_mem_map.mpr fun s hs ↦ (hlaidAll s hs s s.mem_all_self).isFenced
      (hfreshAll s hs s s.mem_all_self) (hlaid.body.code s hs)
  have harranged : tree.body.IsArranged tree.source ⟨0, tree.source.length⟩ := by
    refine ⟨hplaces ▸ hfenced, ?_, fun _ hk ↦ (Nat.succ_ne_zero _ hk.symm).elim,
      fun s _ ↦ ⟨Nat.zero_le _, Text.nextLine_le _ _⟩⟩
    rw [hplaces]
    exact (Span.pairwise_precedes hfenced hlaid.body.follows).imp .inl
  rw [Tree.edits, source_prune] at hedits
  rw [prune] at hedits ⊢
  split_ifs at hedits ⊢ with htargets
  · exact harranged.confined
      (fun s hs ↦ s.isConfined_of_isFresh (hlaid.body.code s hs) (hlaidAll s hs) (hfreshAll s hs))
        hedits
  · refine (harranged.perm (tree.body.places_prune)).confined ?_ hedits
    rw [Block.statements_prune]
    intro kept hkept
    obtain ⟨s, hs, hprune⟩ := List.mem_filterMap.mp hkept
    exact s.isConfined_prune (hlaid.body.code s hs) (hlaidAll s hs) (hfreshAll s hs) kept hprune

/-- Writing a pruned tree back touches only what was removed. The edits of the tree, where it has
them, lie in the source and do not overlap, so that they can all be carried out; and the text of
every leaf and of every clause header that is left is untouched by them and stands in the result,
moved by what was taken away and put in before it. -/
theorem render_prune (targets : TargetSet) (policy : Policy) (tree : Tree) (hfresh : tree.IsFresh)
    (hlaid : tree.IsLaidOut) {edits : List Edit}
    (hedits : (tree.prune targets policy).1.edits = .ok edits) :
    (∀ e ∈ edits, e.Fits tree.source.length) ∧ edits.Pairwise Edit.Apart ∧
    ∃ text, (tree.prune targets policy).1.render = .ok text ∧
      ∀ s ∈ (tree.prune targets policy).1.body.all, ∀ span, s.Owns tree.source span →
        (∀ e ∈ edits, e.Spares span) ∧
        ∃ before after, text = before ++ span.read tree.source ++ after ∧
          (before.length : Int) = Edit.moved edits span.start := by
  have hconfined := confined_prune hfresh hlaid hedits
  have hfits : ∀ e ∈ edits, e.Fits tree.source.length := fun e he ↦
    ⟨(hconfined.inside e he).1, hconfined.proper e he, (hconfined.inside e he).2⟩
  obtain ⟨text, happly, htext⟩ := Edit.exists_applyAll hfits hconfined.apart
  refine ⟨hfits, hconfined.apart, text, ?_, fun s hs span hspan ↦ ?_⟩
  · rw [render, hedits, source_prune]
    exact Except.mapError_eq_ok_iff.mpr happly
  · have hholds := Block.holds_iff.mpr ⟨s, hs, hspan⟩
    obtain ⟨-, hle, hstop⟩ := hconfined.reaches span hholds
    have hspares := hconfined.spares span hholds
    exact ⟨hspares, htext span hle hstop hspares⟩

/-- In the specimen two placeholders are written and the last clause goes; the `b` of the `else` is
4 units further to the left than before. -/
theorem render_prune_specimen :
    specimenTree.IsFresh ∧ specimenTree.IsLaidOut ∧
    ∃ edits, (specimenTree.prune ⟨["print"]⟩ .remove).1.edits = .ok edits ∧ edits.length = 3 ∧
      edits.Pairwise Edit.Apart ∧
      ∃ text, (specimenTree.prune ⟨["print"]⟩ .remove).1.render = .ok text ∧
        ∃ before after, text = before ++ Span.read specimen ⟨21, 22⟩ ++ after ∧
        before.length = 17 := by
  have hfresh := check_specimen.2.1
  have hlaid : specimenTree.IsLaidOut := by decide +kernel
  have hedits : (specimenTree.prune ⟨["print"]⟩ .remove).1.edits =
      .ok [⟨6, 14, Edit.placeholderText⟩, ⟨28, 36, Edit.placeholderText⟩, .deletion 49 77] := by
    decide +kernel
  obtain ⟨-, hapart, text, hrender, hstands⟩ :=
    Tree.render_prune ⟨["print"]⟩ .remove specimenTree hfresh hlaid hedits
  obtain ⟨s, hs, howns⟩ :
      ∃ s ∈ (specimenTree.prune ⟨["print"]⟩ .remove).1.body.all, s.Owns specimen ⟨21, 22⟩ := by
    decide +kernel
  obtain ⟨-, before, after, htext, hlength⟩ := hstands s hs ⟨21, 22⟩ howns
  exact ⟨hfresh, hlaid, _, hedits, rfl, hapart, text, hrender, before, after, htext,
    Int.ofNat_inj.mp hlength⟩

end Tree

end Declutter
