import Declutter.Proofs.Python.Sound
/-!
Blocks, and the nodes that hold them. A block is one of statements, or of the cases of a `match`
(`Node.IsBlock`); behind the colon of a header it is a suite (`Node.IsSuite`). A construct is sound
if only phrases are before its first suite and only clauses behind it (`Node.isSound_construct`), a
clause if it ends in its suite and only phrases are before it (`Node.isSound_clause`).
-/

set_option autoImplicit false
set_option relaxedAutoImplicit false

namespace Declutter.Python.Node

variable [Source] {i j k start stop : Nat} {n suite : Node} {nodes nodes' children : List Node}
  {kind : Kind} {label : Option Label} {part : Label} {p : Node → Prop}

/-! ### Statements -/

/-- What is read is an item. -/
theorem Begins.areItems {c c' : Cursor} (h : n.Begins c) (hends : n.Ends c') (hp : p n) :
    AreItems p c.lastEnd [n] c'.lastEnd :=
  hends.stop_eq ▸ areItems_singleton h.gap ⟨hends.lt, h.code⟩ hp

@[grind ←]
theorem isStatement_of_isPhrase (h : n.kind.isPhrase = true) (hends : Source.EndsCode n.span.stop) :
    n.IsStatement := by
  refine ⟨?_, .inr hends⟩
  cases hkind : n.kind <;> first | rfl | exact Bool.noConfusion (hkind ▸ h)

@[grind ←]
theorem isStatement_of_isCompound (h : n.kind.isCompound = true) : n.IsStatement := by
  refine ⟨?_, .inl h⟩
  cases hkind : n.kind <;> first | rfl | exact Bool.noConfusion (hkind ▸ h)

@[grind →]
theorem IsRead.areItems {c c' : Cursor} (h : n.IsRead c c') :
    AreItems IsStatement c.lastEnd [n] c'.lastEnd :=
  h.2.1.areItems h.2.2.1 (isStatement_of_isPhrase h.1.kind (h.2.2.1.stop_eq ▸ h.2.2.2))

/-- Items that are read between two cursors. -/
structure AreListed (p : Node → Prop) (c : Cursor) (nodes : List Node) (c' : Cursor) : Prop where
  laid : AreLaid c.offset nodes c'.lastEnd
  items : AreItems p c.lastEnd nodes c'.lastEnd

attribute [grind →] AreListed.laid AreListed.items
attribute [grind intro] AreListed

theorem Begins.areListed {c c' : Cursor} (h : n.Begins c) (hends : n.Ends c') (hp : p n) :
    AreListed p c [n] c' :=
  ⟨h.areLaid hends, h.areItems hends hp⟩

@[grind →]
theorem IsReadAs.areListed {symbol : Symbol} {c c' : Cursor} (h : n.IsReadAs symbol c c') :
    AreListed IsStatement c [n] c' := by
  obtain ⟨hbegins, hends, ⟨-, hcompound⟩ | hphrase⟩ := h
  · exact hbegins.areListed hends (isStatement_of_isCompound hcompound)
  · have hread : n.IsRead c c' := ⟨hphrase.1, hbegins, hends, hphrase.2⟩
    exact ⟨hbegins.areLaid hends, hread.areItems⟩

/-! ### Blocks -/

/-- A case of a `match`. -/
def IsCase (n : Node) : Prop := n.kind = .caseClause

/-- A block of items that ends with its line, whichever part it plays. -/
structure IsBlock (p : Node → Prop) (n : Node) : Prop where
  kind : n.kind = .block
  sound : n.IsSound
  closes : Source.Closes n.span.stop
  items : n.problem? = none → ∀ s ∈ n.children, p s

attribute [grind →] IsBlock.sound IsBlock.closes

theorem isSound_block (h : AreLaid start children stop) (hitems : AreItems p i children j) :
    IsSound ⟨.block, label, ⟨start, stop⟩, children⟩ :=
  isSound_of_isLined h rfl rfl nofun fun hchildren ↦
    have hspaced := hitems hchildren
    ⟨nofun, fun _ ↦ ⟨fun s hs ↦ (hspaced.1 s hs).1, hspaced.2.next⟩, nofun, nofun, nofun, nofun⟩

theorem isBlock_mk (h : AreLaid start children stop) (hitems : AreItems p i children j)
    (hcloses : Source.Closes stop) : IsBlock p ⟨.block, label, ⟨start, stop⟩, children⟩ where
  kind := rfl
  sound := isSound_block h hitems
  closes := hcloses
  items hproblem s hs := ((hitems ((problem?_eq_none_iff_children _).mp hproblem).2).1 s hs).2

/-- Something is wrong with an empty block. -/
@[grind ←]
theorem isBlock_nil (h : start ≤ stop) (hcloses : Source.Closes stop) :
    IsBlock p ⟨.block, label, ⟨start, stop⟩, []⟩ :=
  isBlock_mk (p := p) h (areItems_nil (.refl start)) hcloses

theorem isBlock_of_laid (h : AreLaid i nodes j) (hitems : AreItems p k nodes j)
    (hcloses : Source.Closes j) :
    IsBlock p ⟨.block, none, ⟨(nodes.head?.map (·.span.start)).getD i, j⟩, nodes⟩ := by
  refine isBlock_mk ?_ hitems hcloses
  cases nodes with
  | nil => exact h
  | cons n rest => exact ⟨fun hn ↦ ⟨le_rfl, (h.1 hn).2⟩, h.2⟩

/-- An indented block begins with its first statement. -/
theorem areLaid_block (h : AreLaid i nodes j) (hitems : AreItems p k nodes j) :
    AreLaid i [⟨.block, none, ⟨(nodes.head?.map (·.span.start)).getD i, j⟩, nodes⟩] j := by
  cases nodes with
  | nil => exact ⟨fun _ ↦ ⟨le_rfl, h⟩, isSound_block h hitems, le_rfl⟩
  | cons n rest =>
    refine ⟨fun hproblem ↦ ?_, isSound_block ⟨fun hn ↦ ⟨le_rfl, (h.1 hn).2⟩, h.2⟩ hitems, le_rfl⟩
    have hnone := ((problem?_eq_none_iff_children _).mp hproblem).2
    obtain ⟨-, hinside, -⟩ := h.arranged hnone
    have hn := hinside n List.mem_cons_self
    exact ⟨hn.start, (h.1 (hnone n List.mem_cons_self)).2.trans hn.stop⟩

/-! ### What holds a block -/

/-- A block of statements behind a colon, which is not before `start`. -/
structure IsSuite (start : Nat) (n : Node) : Prop extends n.IsBlock IsStatement where
  colon : n.problem? = none → Source.HasColon start n.span.start

theorem IsSuite.mono (h : n.IsSuite i) (hstart : start ≤ i) : n.IsSuite start :=
  ⟨h.toIsBlock, fun hproblem ↦ (h.colon hproblem).mono hstart le_rfl⟩

grind_pattern IsSuite.mono => IsSuite start n, IsSuite i n

/-- A block that starts behind a colon is a suite. -/
theorem IsBlock.isSuite {colon : Nat} (h : n.IsBlock IsStatement) (hstart : start ≤ colon)
    (hcolon : Source.IsColonAt colon) (hlt : n.problem? = none → colon < n.span.start) :
    n.IsSuite start :=
  ⟨h, fun hproblem ↦ ⟨colon, hstart, hlt hproblem, hcolon⟩⟩

/-- A block that is laid behind a colon is a suite. -/
theorem IsBlock.isSuite_of_areLaid {colon : Nat} (h : n.IsBlock IsStatement)
    (hstart : start ≤ colon) (hcolon : Source.IsColonAt colon) (hk : colon < k)
    (hlaid : AreLaid k [n] j) : n.IsSuite start :=
  h.isSuite hstart hcolon fun hproblem ↦ hk.trans_le (hlaid.1 hproblem).1

attribute [grind →] IsSuite.toIsBlock
grind_pattern isBlock_mk =>
  IsBlock p ⟨.block, label, ⟨start, stop⟩, children⟩, AreItems p i children j
grind_pattern IsBlock.isSuite => n.IsSuite start, Source.IsColonAt colon
grind_pattern IsBlock.isSuite_of_areLaid =>
  n.IsSuite start, Source.IsColonAt colon, AreLaid k [n] j

theorem IsSuite.as (h : n.IsSuite start) (part : Label) : (n.as part).IsSuite start where
  kind := h.kind
  sound := (isSound_as part n).mpr h.sound
  closes := h.closes
  items hproblem := h.items (problem?_as part n ▸ hproblem)
  colon hproblem := h.colon (problem?_as part n ▸ hproblem)

/-- Clauses one after the other, the last one of which ends with its line. -/
structure AreClauses (i : Nat) (nodes : List Node) (j : Nat) : Prop where
  laid : AreLaid i nodes j
  items : AreItems (·.clauseRole?.isSome = true) i nodes j
  closes : Source.Closes i → Source.Closes j

attribute [grind →] AreClauses.laid AreClauses.closes

attribute [grind =] clauseRole?

@[grind ←]
theorem areClauses_nil (i : Nat) : AreClauses i [] i :=
  ⟨le_rfl, areItems_nil (.refl i), id⟩

theorem AreClauses.append (h : AreClauses i nodes k) (h' : AreClauses k nodes' j) :
    AreClauses i (nodes ++ nodes') j :=
  ⟨h.laid.append h'.laid le_rfl, h.items.append h'.items, h'.closes ∘ h.closes⟩

/-- Among the nodes there is a suite in the given part. Only phrases are before it, and behind it
there are only clauses. -/
def HasSuite (part : Label) (start : Nat) (nodes : List Node) (stop : Nat) : Prop :=
  ∃ before suite after, nodes = before ++ suite :: after ∧ ArePhrases before ∧
    suite.IsSuite start ∧ suite.label = some part ∧ AreClauses suite.span.stop after stop

/-- The last one of the nodes is a suite, and only phrases are before it. -/
def EndsInSuite (start : Nat) (nodes : List Node) (stop : Nat) : Prop :=
  ∃ before suite, nodes = before ++ [suite] ∧ ArePhrases before ∧ suite.IsSuite start ∧
    (suite.label = none ∨ suite.label = some .body ∨ suite.label = some .consequence) ∧
    suite.span.stop = stop

theorem hasSuite_as (h : n.IsSuite start) (part : Label) (hnodes : AreClauses n.span.stop nodes j) :
    HasSuite part start (n.as part :: nodes) j :=
  ⟨[], n.as part, nodes, rfl, List.forall_mem_nil _, h.as part, rfl, hnodes⟩

theorem HasSuite.cons (h : HasSuite part start nodes j) (hn : n.IsPhrase) :
    HasSuite part start (n :: nodes) j := by
  obtain ⟨before, suite, after, rfl, hbefore, hsuite⟩ := h
  exact ⟨n :: before, suite, after, rfl, List.forall_mem_cons.mpr ⟨hn, hbefore⟩, hsuite⟩

theorem HasSuite.append_left (h : HasSuite part start nodes' j) (hnodes : ArePhrases nodes) :
    HasSuite part start (nodes ++ nodes') j := by
  obtain ⟨before, suite, after, rfl, hbefore, hsuite⟩ := h
  exact ⟨nodes ++ before, suite, after, (List.append_assoc ..).symm,
    List.forall_mem_append.mpr ⟨hnodes, hbefore⟩, hsuite⟩

theorem HasSuite.append_right (h : HasSuite part start nodes k) (h' : AreClauses k nodes' j) :
    HasSuite part start (nodes ++ nodes') j := by
  obtain ⟨before, suite, after, rfl, hbefore, hsuite, hpart, hafter⟩ := h
  exact ⟨before, suite, after ++ nodes', List.append_assoc .., hbefore, hsuite, hpart,
    hafter.append h'⟩

theorem endsInSuite_singleton (h : n.IsSuite start) (hlabel : n.label = none) :
    EndsInSuite start [n] n.span.stop :=
  ⟨[], n, rfl, List.forall_mem_nil _, h, .inl hlabel, rfl⟩

theorem endsInSuite_as (h : n.IsSuite start) (hpart : part = .body ∨ part = .consequence) :
    EndsInSuite start [n.as part] n.span.stop :=
  ⟨[], n.as part, rfl, List.forall_mem_nil _, h.as part,
    .inr (hpart.imp (congrArg some) (congrArg some)), rfl⟩

theorem EndsInSuite.cons (h : EndsInSuite start nodes j) (hn : n.IsPhrase) :
    EndsInSuite start (n :: nodes) j := by
  obtain ⟨before, suite, rfl, hbefore, hsuite⟩ := h
  exact ⟨n :: before, suite, rfl, List.forall_mem_cons.mpr ⟨hn, hbefore⟩, hsuite⟩

theorem EndsInSuite.append (h : EndsInSuite start nodes' j) (hnodes : ArePhrases nodes) :
    EndsInSuite start (nodes ++ nodes') j := by
  obtain ⟨before, suite, rfl, hbefore, hsuite⟩ := h
  exact ⟨nodes ++ before, suite, (List.append_assoc ..).symm,
    List.forall_mem_append.mpr ⟨hnodes, hbefore⟩, hsuite⟩

attribute [grind ←] hasSuite_as HasSuite.cons HasSuite.append_left
attribute [grind ←] endsInSuite_singleton endsInSuite_as EndsInSuite.cons EndsInSuite.append
grind_pattern HasSuite.append_right =>
  HasSuite part start (nodes ++ nodes') j, AreClauses k nodes' j

omit [Source] in
theorem IsPhrase.plays_eq_false (h : n.IsPhrase) (hpart : part = .body ∨ part = .consequence) :
    n.plays part = false := by
  obtain rfl | rfl := hpart
  · exact decide_eq_false h.label.1
  · exact decide_eq_false h.label.2.1

omit [Source] in
theorem clauseRole?_of_isPhrase (h : n.IsPhrase) : n.clauseRole? = none := by
  have hkind := h.kind
  rw [clauseRole?]
  split <;> simp_all [Kind.isPhrase]

/-- The statements of a suite with nothing wrong in it begin with code. -/
theorem IsSuite.beginsOnCode (h : n.IsSuite start) (hproblem : n.problem? = none) :
    ∀ s ∈ n.code, s.span.BeginsOnCode Source.text := fun s hs ↦
  have hitem := ((h.sound.self hproblem).2.1.items h.kind).1 s (List.mem_filter.mp hs).1
  Source.beginsOnCode hitem.lt hitem.code

section Construct

variable {before after : List Node}

omit [Source] in
/-- The clauses of a construct come behind its suite. -/
theorem mem_of_clauseRole? {c : Node} (hbefore : ArePhrases before) (hsuite : suite.kind = .block)
    (hc : c ∈ before ++ suite :: after) (hrole : c.clauseRole?.isSome = true) : c ∈ after := by
  obtain hc | hc := List.mem_append.mp hc
  · rw [clauseRole?_of_isPhrase (hbefore c hc)] at hrole
    exact Bool.noConfusion hrole
  · obtain rfl | hc := List.mem_cons.mp hc
    · rw [clauseRole?, hsuite] at hrole
      exact Bool.noConfusion hrole
    · exact hc

omit [Source] in
theorem filter_clauseRole?_append (hbefore : ArePhrases before) (hsuite : suite.kind = .block)
    (hafter : ∀ c ∈ after, c.clauseRole?.isSome = true) :
    (before ++ suite :: after).filter (·.clauseRole?.isSome) = after := by
  have hnone : before.filter (·.clauseRole?.isSome) = [] :=
    List.filter_eq_nil_iff.mpr fun c hc ↦ by
      rw [clauseRole?_of_isPhrase (hbefore c hc)]
      exact Bool.false_ne_true
  rw [List.filter_append, hnone, List.nil_append, List.filter_cons_of_neg,
    List.filter_eq_self.mpr hafter]
  rw [clauseRole?, hsuite]
  exact Bool.false_ne_true

omit [Source] in
theorem suite?_of_isConstruct (hkind : kind.isConstruct = true) (hbefore : ArePhrases before)
    (hpart : suite.label = some (if kind = .ifStatement then .consequence else .body))
    (span : Span) (after : List Node) :
    suite? ⟨kind, label, span, before ++ suite :: after⟩ = some suite := by
  rw [suite?, if_pos hkind]
  refine List.find?_eq_some_iff_append.mpr
    ⟨decide_eq_true hpart, before, after, rfl, fun n hn ↦ ?_⟩
  rw [Lowering.isFirstBlock, (hbefore n hn).plays_eq_false (by split_ifs <;> simp)]
  rfl

/-- A construct is lined if its suite is behind a colon and its clauses are spaced. -/
theorem isLined_construct (hkind : kind.isConstruct = true) (hbefore : ArePhrases before)
    (hsuite : suite.IsSuite start) (hafter : AreClauses suite.span.stop after stop)
    (hfirst : suite? ⟨kind, label, ⟨start, stop⟩, before ++ suite :: after⟩ = some suite)
    (hchildren : ∀ c ∈ before ++ suite :: after, c.problem? = none) :
    IsLined ⟨kind, label, ⟨start, stop⟩, before ++ suite :: after⟩ := by
  rw [List.forall_mem_append, List.forall_mem_cons] at hchildren
  obtain ⟨-, hproblem, hchildren⟩ := hchildren
  obtain ⟨hitems, hspaced⟩ := hafter.items hchildren
  exact {
    closes := fun _ ↦ hafter.closes hsuite.closes
    items := fun heq ↦ absurd heq (Kind.ne_of_holds hkind rfl)
    suite := fun _ ↦
      ⟨suite, hfirst, hsuite.colon hproblem, hsuite.closes, hsuite.items hproblem⟩
    clauses := fun _ b hb ↦ by
      obtain rfl := Option.some.inj (hfirst.symm.trans hb)
      dsimp only
      rw [filter_clauseRole?_append hbefore hsuite.kind fun c hc ↦ (hitems c hc).2]
      exact ⟨hspaced.isChain_cons, fun c hc hrole ↦
        (hitems c (mem_of_clauseRole? hbefore hsuite.kind hc hrole)).1⟩
    cases := fun heq ↦ absurd heq (Kind.ne_of_holds hkind rfl)
    definition := fun heq ↦ absurd heq (Kind.ne_of_holds hkind rfl) }

/-- A construct is sound if the suite in its part is the first one of its blocks. -/
theorem isSound_construct (h : AreLaid start children stop) (hkind : kind.isConstruct = true)
    (hsuite : HasSuite (if kind = .ifStatement then .consequence else .body) start children stop) :
    IsSound ⟨kind, label, ⟨start, stop⟩, children⟩ := by
  obtain ⟨before, suite, after, rfl, hbefore, hsuite, hpart, hafter⟩ := hsuite
  have hfirst : suite? ⟨kind, label, ⟨start, stop⟩, before ++ suite :: after⟩ = some suite :=
    suite?_of_isConstruct hkind hbefore hpart _ after
  refine isSound_of_suite h (fun heq ↦ absurd heq (Kind.ne_of_holds hkind rfl))
    (isLined_construct hkind hbefore hsuite hafter hfirst) fun hchildren hapart b hb ↦ ?_
  obtain rfl := Option.some.inj (hfirst.symm.trans hb)
  refine ⟨⟨hsuite.kind, hsuite.beginsOnCode (hchildren _ (by simp))⟩, fun _ c hc hrole ↦ ?_⟩
  have hbehind := (List.pairwise_cons.mp (List.pairwise_append.mp hapart).2.1).1
  exact hbehind c (mem_of_clauseRole? hbefore hsuite.kind hc hrole)

end Construct

omit [Source] in
theorem any_plays_append (hnodes : ArePhrases nodes) (suite : Node)
    (hpart : part = .body ∨ part = .consequence) :
    (nodes ++ [suite]).any (plays part) = suite.plays part := by
  have hnone : nodes.any (plays part) = false :=
    List.any_eq_false.mpr fun n hn ↦ by
      rw [(hnodes n hn).plays_eq_false hpart]
      exact Bool.false_ne_true
  rw [List.any_append, hnone, List.any_cons, List.any_nil, Bool.or_false, Bool.false_or]

omit [Source] in
/-- The suite at the end is the one that is told by its part or, if it plays none, by its kind. -/
theorem isSuiteOf_of_isPhrase (hnodes : ArePhrases nodes) (hsuite : suite.kind = .block)
    (hpart : suite.label = none ∨ suite.label = some .body ∨ suite.label = some .consequence) :
    isSuiteOf (nodes ++ [suite]) suite = true ∧
      ∀ n ∈ nodes, isSuiteOf (nodes ++ [suite]) n = false := by
  have hbody (n : Node) (hn : n ∈ nodes) : n.plays .body = false :=
    (hnodes n hn).plays_eq_false (.inl rfl)
  have hconsequence (n : Node) (hn : n ∈ nodes) : n.plays .consequence = false :=
    (hnodes n hn).plays_eq_false (.inr rfl)
  have hblock (n : Node) (hn : n ∈ nodes) : n.kind ≠ .block := fun heq ↦ by
    have hkind := (hnodes n hn).kind
    rw [heq] at hkind
    exact Bool.noConfusion hkind
  unfold isSuiteOf
  rw [any_plays_append hnodes suite (.inl rfl), any_plays_append hnodes suite (.inr rfl)]
  simp only [plays] at *
  obtain hpart | hpart | hpart := hpart <;> simp_all

/-- A clause that ends in a suite is sound. -/
theorem isSound_clause (h : AreLaid start children stop) (hkind : kind.isClause = true)
    (hsuite : EndsInSuite start children stop) :
    IsSound ⟨kind, label, ⟨start, stop⟩, children⟩ := by
  obtain ⟨before, suite, rfl, hbefore, hsuite, hpart, rfl⟩ := hsuite
  have hconstruct : kind.isConstruct = false := by
    cases kind <;> first | rfl | exact Bool.noConfusion hkind
  have hfirst : suite? ⟨kind, label, ⟨start, suite.span.stop⟩, before ++ [suite]⟩ = some suite := by
    obtain ⟨hlast, hothers⟩ := isSuiteOf_of_isPhrase hbefore hsuite.kind hpart
    rw [suite?, if_neg (by rw [hconstruct]; exact Bool.false_ne_true), if_pos hkind]
    refine List.find?_eq_some_iff_append.mpr ⟨hlast, before, [], rfl, fun n hn ↦ ?_⟩
    rw [hothers n hn]
    rfl
  have hnot {P : Prop} (hof : kind.isConstruct = true) : P :=
    Bool.noConfusion (hconstruct.symm.trans hof)
  refine isSound_of_suite h (fun heq ↦ absurd heq (Kind.ne_of_holds hkind rfl))
    (fun hchildren ↦ ?_) fun hchildren hapart b hb ↦ ?_
  · have hproblem := hchildren suite (by simp)
    exact {
      closes := fun _ ↦ hsuite.closes
      items := fun heq ↦ absurd heq (Kind.ne_of_holds hkind rfl)
      suite := fun _ ↦
        ⟨suite, hfirst, hsuite.colon hproblem, hsuite.closes, hsuite.items hproblem⟩
      clauses := hnot
      cases := fun heq ↦ absurd heq (Kind.ne_of_holds hkind rfl)
      definition := fun heq ↦ absurd heq (Kind.ne_of_holds hkind rfl) }
  · obtain rfl := Option.some.inj (hfirst.symm.trans hb)
    exact ⟨⟨hsuite.kind, hsuite.beginsOnCode (hchildren _ (by simp))⟩, hnot⟩

/-- A clause behind the suite of a construct, or behind another one. -/
theorem areClauses_singleton (h : AreLaid start children stop)
    (hrole : clauseRole? ⟨kind, label, ⟨start, stop⟩, children⟩ ≠ none)
    (hsuite : EndsInSuite start children stop) (hgap : Spacing Source.text 0 i start)
    (hcode : Source.IsCodeAt start) (hlt : start < stop) :
    AreClauses i [⟨kind, label, ⟨start, stop⟩, children⟩] stop := by
  have hkind : kind.isClause = true :=
    Lowering.isClause_of_clauseRole? (Option.some_get (Option.isSome_iff_ne_none.mpr hrole)).symm
  have hcloses : Source.Closes stop := by
    obtain ⟨-, suite, -, -, hsuite, -, rfl⟩ := hsuite
    exact hsuite.closes
  refine ⟨⟨fun _ ↦ ⟨hgap.le, hlt.le⟩, isSound_clause h hkind hsuite, le_rfl⟩, ?_, fun _ ↦ hcloses⟩
  exact areItems_singleton (n := ⟨kind, label, ⟨start, stop⟩, children⟩) hgap ⟨hlt, hcode⟩
    (Option.isSome_iff_ne_none.mpr hrole)

/-- A selection is sound if it ends in a block of cases. -/
theorem isSound_selection {before : List Node} {b : Node}
    (h : AreLaid start (before ++ [b.as .body]) stop) (hbefore : ArePhrases before)
    (hb : b.IsBlock IsCase) (hstop : b.span.stop = stop) :
    IsSound ⟨.matchStatement, label, ⟨start, stop⟩, before ++ [b.as .body]⟩ :=
  isSound_of_isLined h rfl rfl nofun fun hchildren ↦
    have hproblem : b.problem? = none := problem?_as .body b ▸ hchildren _ (by simp)
    ⟨fun _ ↦ hstop ▸ hb.closes, nofun, nofun, nofun, fun _ ↦ ⟨before, b.as .body, rfl,
      fun m hm ↦ (hbefore m hm).plays_eq_false (.inl rfl), rfl, hb.kind, hb.items hproblem⟩, nofun⟩

/-- A definition under decorators is sound if it ends with its line. -/
theorem isSound_decorated {before : List Node} {d : Node}
    (h : AreLaid start (before ++ [d.as .definition]) stop) (hbefore : ArePhrases before)
    (hd : d.kind = .functionDefinition ∨ d.kind = .classDefinition)
    (hcloses : Source.Closes stop) :
    IsSound ⟨.decoratedDefinition, label, ⟨start, stop⟩, before ++ [d.as .definition]⟩ :=
  isSound_of_isLined h rfl rfl nofun fun _ ↦
    ⟨fun _ ↦ hcloses, nofun, nofun, nofun, nofun, fun _ ↦ ⟨before, d.as .definition, rfl,
      fun m hm ↦ decide_eq_false (hbefore m hm).label.2.2, rfl, hd⟩⟩

/-- A clause behind other ones. -/
theorem AreClauses.concat (h : AreClauses i nodes k)
    (hn : AreClauses k [⟨kind, label, ⟨start, stop⟩, children⟩] j) :
    AreClauses i (nodes ++ [⟨kind, label, ⟨start, stop⟩, children⟩]) j :=
  h.append hn

attribute [grind ←] areClauses_singleton
grind_pattern AreClauses.append => nodes ++ nodes', AreClauses i nodes k, AreClauses k nodes' j
grind_pattern AreClauses.concat =>
  AreClauses i (nodes ++ [⟨kind, label, ⟨start, stop⟩, children⟩]) j, AreClauses i nodes k
grind_pattern isSound_construct => IsSound (⟨kind, label, ⟨start, stop⟩, children⟩ : Node)
grind_pattern isSound_clause => IsSound (⟨kind, label, ⟨start, stop⟩, children⟩ : Node)
grind_pattern isSound_selection =>
  IsSound ⟨.matchStatement, label, ⟨start, stop⟩, before ++ [b.as .body]⟩
grind_pattern isSound_decorated =>
  IsSound ⟨.decoratedDefinition, label, ⟨start, stop⟩, before ++ [d.as .definition]⟩

end Declutter.Python.Node
