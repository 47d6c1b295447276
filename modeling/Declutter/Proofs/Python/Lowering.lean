import Declutter.Proofs.Python.Node
import Declutter.Proofs.Tree.WellFormed
/-!
What lowering makes of a concrete syntax tree. Of the tree itself little is asked (`Node.IsTreeOf`):
children are in the order of the text and inside their parent, suites are blocks, clauses come after
the first block of their construct, and statements begin on code. If the check for syntax errors
finds nothing in it, the statement tree is well-formed (`Node.IsTreeOf.isWellFormed_lower`).

What a statement is made of is said once (`Lowering.isStatementOf_statement`): a compound statement
is a construct of a node with a block of its own, which may be under decorators, or a selection of
the cases of a `match`. The clauses of either are made of some of the children of a node, in their
order (`Lowering.AreClausesOf`).
-/

set_option autoImplicit false
set_option relaxedAutoImplicit false

namespace Declutter

namespace Python

/-! ### Concrete trees -/

/-- The statement forms that have a block of their own, which clauses can follow. -/
def Kind.isConstruct : Kind → Bool
  | .ifStatement | .forStatement | .whileStatement | .tryStatement | .withStatement |
      .functionDefinition
  | .classDefinition => true
  | _ => false

/-- The forms of clauses, which have a block. -/
def Kind.isClause : Kind → Bool
  | .elifClause | .elseClause | .exceptClause | .finallyClause | .caseClause => true
  | _ => false

namespace Node

/-- The suite of a node: the first block of a construct, or the block of a clause. -/
def suite? (n : Node) : Option Node :=
  if n.kind.isConstruct then n.children.find? (Lowering.isFirstBlock n.kind)
  else if n.kind.isClause then n.children.find? (isSuiteOf n.children)
  else none

/-- How the children of a node lie in it: inside it and one after the other. Its suite is a block
whose statements begin on code, and in a construct the clauses come after it. -/
structure IsArranged (source : Text) (n : Node) : Prop where
  nested : ∀ c ∈ n.children, n.span.Contains c.span
  apart : n.children.Pairwise fun a b ↦ a.span.stop ≤ b.span.start
  suite : ∀ b ∈ n.suite?, b.kind = .block ∧ ∀ s ∈ b.code, s.span.BeginsOnCode source
  follows : n.kind.isConstruct = true → ∀ b ∈ n.suite?, ∀ c ∈ n.children,
    c.clauseRole?.isSome = true → b.span.stop ≤ c.span.start

/-- A concrete syntax tree over a source, whose nodes are all arranged. The statements of the module
begin on code, too. -/
structure IsTreeOf (source : Text) (root : Node) : Prop where
  length : root.span.stop ≤ source.length
  arranged : ∀ n ∈ root.all, n.IsArranged source
  statements : ∀ s ∈ root.code, s.span.BeginsOnCode source

instance (source : Text) (n : Node) : Decidable (n.IsArranged source) :=
  decidable_of_iff
    ((∀ c ∈ n.children, n.span.Contains c.span) ∧
      (n.children.Pairwise fun a b ↦ a.span.stop ≤ b.span.start) ∧
      (∀ b ∈ n.suite?, b.kind = .block ∧ ∀ s ∈ b.code, s.span.BeginsOnCode source) ∧
      (n.kind.isConstruct = true → ∀ b ∈ n.suite?, ∀ c ∈ n.children, c.clauseRole?.isSome = true →
        b.span.stop ≤ c.span.start))
    ⟨fun ⟨h₁, h₂, h₃, h₄⟩ ↦ ⟨h₁, h₂, h₃, h₄⟩, fun ⟨h₁, h₂, h₃, h₄⟩ ↦ ⟨h₁, h₂, h₃, h₄⟩⟩

instance (source : Text) (root : Node) : Decidable (root.IsTreeOf source) :=
  decidable_of_iff
    (root.span.stop ≤ source.length ∧ (∀ n ∈ root.all, n.IsArranged source) ∧
      ∀ s ∈ root.code, s.span.BeginsOnCode source)
    ⟨fun ⟨h₁, h₂, h₃⟩ ↦ ⟨h₁, h₂, h₃⟩, fun ⟨h₁, h₂, h₃⟩ ↦ ⟨h₁, h₂, h₃⟩⟩

variable {source : Text} {n m : Node}

/-- The suite of a node is one of its children. -/
theorem mem_children_of_suite? (h : n.suite? = some m) : m ∈ n.children := by
  rw [suite?] at h
  split_ifs at h
  · exact List.mem_of_find?_eq_some h
  · exact List.mem_of_find?_eq_some h

/-- In a tree of arranged nodes every node is inside the whole. -/
theorem contains_of_mem_all (harranged : ∀ u ∈ n.all, u.IsArranged source) (hm : m ∈ n.all) :
    n.span.Contains m.span := by
  induction n using childInduct with
  | node n ih =>
    have hn := harranged n n.mem_all_self
    rw [all_eq, List.mem_cons] at hm
    obtain rfl | hm := hm
    · exact .refl _
    · obtain ⟨c, hc, hmc⟩ := mem_inner_iff.mp hm
      have hinside : c.all ⊆ n.all := all_subset (n.inner_subset (mem_inner n.mem_all_self hc))
      exact (hn.nested c hc).trans (ih c hc (fun u hu ↦ harranged u (hinside hu)) hmc)

end Node

/-! ### What lowering makes of a node -/

namespace Lowering

variable {source : Text} {kind : Kind} {n m : Node} {children : List Node}

theorem statements_eq (nodes : List Node) :
    statements source nodes = (nodes.filter (!·.kind.isExtra)).map (statement source) := by
  induction nodes with
  | nil => rw [statements, List.filter_nil, List.map_nil]
  | cons n rest ih =>
    rw [statements, List.filter_cons, ih]
    cases n.kind.isExtra <;> rfl

/-- A block holds the statements of its node, and nothing is missing in it. -/
theorem block_eq (n : Node) :
    block source n = ⟨n.span.trimEnd source, n.code.map (statement source), [], false⟩ := by
  obtain ⟨kind, label, span, children⟩ := n
  rw [block, statements_eq]
  rfl

theorem blockIn_eq (p : Node → Bool) (nodes : List Node) :
    blockIn source p nodes = (nodes.find? p).map (block source) := by
  induction nodes with
  | nil => rw [blockIn, List.find?_nil, Option.map_none]
  | cons n rest ih =>
    rw [blockIn, List.find?_cons, ih]
    cases p n <;> rfl

/-- The clause that is made of a node: it has the span of the node and the block of its suite. -/
structure IsClauseOf (source : Text) (n : Node) (cl : Clause) : Prop where
  span : cl.span = n.span.trimEnd source
  body : ∃ suite, n.suite? = some suite ∧ cl.body = block source suite

/-- Clauses that are made of the nodes of a list of which `p` holds, in their order. -/
inductive AreClausesOf (source : Text) (p : Node → Bool) : List Node → List Clause → Prop where
  | nil : AreClausesOf source p [] []
  | skip {n : Node} {nodes : List Node} {clauses : List Clause} (hn : p n = false)
      (rest : AreClausesOf source p nodes clauses) : AreClausesOf source p (n :: nodes) clauses
  | take {n : Node} {cl : Clause} {nodes : List Node} {clauses : List Clause} (hn : p n = true)
      (hcl : IsClauseOf source n cl) (rest : AreClausesOf source p nodes clauses) :
      AreClausesOf source p (n :: nodes) (cl :: clauses)

theorem AreClausesOf.exists_of_mem {p : Node → Bool} {clauses : List Clause}
    (h : AreClausesOf source p children clauses) :
    ∀ cl ∈ clauses, ∃ n ∈ children, p n = true ∧ IsClauseOf source n cl := by
  induction h with
  | nil => exact fun _ hcl ↦ (List.not_mem_nil hcl).elim
  | @skip n _ _ _ _ ih =>
    intro cl hcl
    obtain ⟨m, hm, hmade⟩ := ih cl hcl
    exact ⟨m, List.mem_cons_of_mem n hm, hmade⟩
  | @take n _ _ _ hn hcl _ ih =>
    refine List.forall_mem_cons.mpr ⟨⟨n, List.mem_cons_self, hn, hcl⟩, fun d hd ↦ ?_⟩
    obtain ⟨m, hm, hmade⟩ := ih d hd
    exact ⟨m, List.mem_cons_of_mem n hm, hmade⟩

/-- The clauses span what the nodes do, trimmed. -/
theorem AreClausesOf.map_span {p : Node → Bool} {clauses : List Clause}
    (h : AreClausesOf source p children clauses) :
    clauses.map (·.span) = ((children.filter p).map (·.span)).map (·.trimEnd source) := by
  induction h with
  | nil => rfl
  | skip hn _ ih => rw [ih, List.filter_cons, hn, if_neg Bool.false_ne_true]
  | take hn hcl _ ih =>
    rw [List.map_cons, ih, hcl.span, List.filter_cons, hn, if_pos rfl, List.map_cons,
      List.map_cons]

/-- The block of a clause is that of its suite. -/
theorem suite?_of_isClause (h : n.kind.isClause = true) :
    n.suite? = n.children.find? (Node.isSuiteOf n.children) := by
  obtain ⟨kind, label, span, children⟩ := n
  rw [Node.suite?, if_neg, if_pos h]
  cases kind <;> simp_all [Kind.isClause, Kind.isConstruct]

theorem isClauseOf_of_blockIn {role : Role} {body : Block} (h : n.kind.isClause = true)
    (hbody : blockIn source (Node.isSuiteOf n.children) n.children = some body) :
    IsClauseOf source n ⟨role, n.span.trimEnd source, body⟩ := by
  rw [blockIn_eq, ← suite?_of_isClause h] at hbody
  obtain ⟨suite, hsuite, rfl⟩ := Option.map_eq_some_iff.mp hbody
  exact ⟨rfl, suite, hsuite, rfl⟩

theorem isClause_of_clauseRole? {role : Role} (h : n.clauseRole? = some role) :
    n.kind.isClause = true := by
  obtain ⟨kind, label, span, children⟩ := n
  cases kind <;> cases h <;> rfl

/-- The clauses after the first block of a construct are made of the children that are clauses. -/
theorem areClausesOf_of_clausesIn {clauses : List Clause}
    (h : clausesIn source children = some clauses) :
    AreClausesOf source (·.clauseRole?.isSome) children clauses := by
  induction children generalizing clauses with
  | nil =>
    rw [clausesIn] at h
    obtain rfl := Option.some.inj h
    exact .nil
  | cons n rest ih =>
    obtain ⟨kind, label, span, children⟩ := n
    rw [clausesIn] at h
    split at h
    · next hrole => exact .skip (congrArg Option.isSome hrole) (ih h)
    · next role hrole =>
      split at h
      · next body clauses hbody hclauses =>
        obtain rfl := Option.some.inj h
        exact .take (Option.isSome_of_mem hrole)
          (isClauseOf_of_blockIn (isClause_of_clauseRole? hrole) hbody) (ih hclauses)
      · cases h

/-- The cases of a `match` are made of the nodes that are cases. -/
theorem areClausesOf_of_casesIn {clauses : List Clause}
    (h : casesIn source children = some clauses) :
    AreClausesOf source (·.kind = .caseClause) children clauses := by
  induction children generalizing clauses with
  | nil =>
    rw [casesIn] at h
    obtain rfl := Option.some.inj h
    exact .nil
  | cons n rest ih =>
    obtain ⟨kind, label, span, children⟩ := n
    rw [casesIn] at h
    split_ifs at h with hkind
    · split at h
      · next body clauses hbody hclauses =>
        obtain rfl := Option.some.inj h
        refine .take (decide_eq_true hkind) (isClauseOf_of_blockIn ?_ hbody) (ih hclauses)
        rw [hkind]
        rfl
      · cases h
    · exact .skip (decide_eq_false hkind) (ih h)

/-- A construct made of a node with a block of its own; `outer` is the span of the whole statement.
The first clause goes from the start of the statement to the end of that block. -/
structure IsConstructOf (source : Text) (outer : Span) (n : Node) (c : Construct) : Prop where
  isConstruct : n.kind.isConstruct = true
  span : c.span = outer.trimEnd source
  dropped : c.dropped = []
  clauses : ∃ suite rest, n.suite? = some suite ∧
    c.clauses =
      ⟨.primary, ({ outer with stop := suite.span.stop } : Span).trimEnd source,
        block source suite⟩ :: rest ∧
    AreClausesOf source (·.clauseRole?.isSome) n.children rest

/-- A `match` made of the cases among the children of a node. -/
structure IsSelectionOf (source : Text) (outer : Span) (n : Node) (c : Construct) : Prop where
  span : c.span = outer.trimEnd source
  dropped : c.dropped = []
  nonempty : c.clauses ≠ []
  clauses : AreClausesOf source (·.kind = .caseClause) n.children c.clauses

theorem isFirstBlock_of_construct? {made : ConstructKind} {label : Label}
    (h : construct? source kind children = some (made, label)) :
    kind.isConstruct = true ∧ isFirstBlock kind = Node.plays label := by
  cases kind <;> cases h <;> exact ⟨rfl, rfl⟩

/-- What `construct` gives for a node is a construct made of it. -/
theorem exists_isConstructOf {outer : Span} {s : Statement}
    (h : construct source n.kind outer n.children (blockIn source (isFirstBlock n.kind) n.children)
      (clausesIn source n.children) = some s) :
    ∃ c, s = .compound c ∧ IsConstructOf source outer n c := by
  simp only [construct, Option.bind_eq_bind, Option.bind_eq_some_iff, Option.pure_def,
    Option.some.injEq] at h
  obtain ⟨⟨made, label⟩, hmade, stop, hstop, body, hbody, rest, hrest, rfl⟩ := h
  obtain ⟨hconstruct, hfirst⟩ := isFirstBlock_of_construct? hmade
  have hsuite : n.suite? = n.children.find? (isFirstBlock n.kind) := by
    rw [Node.suite?, if_pos hconstruct]
  rw [blockIn_eq, ← hsuite] at hbody
  obtain ⟨suite, hsome, rfl⟩ := Option.map_eq_some_iff.mp hbody
  have hfind : n.children.find? (·.label = some label) = some suite := by
    rw [← hsome, hsuite, hfirst]; rfl
  rw [stopOf?, hfind, Option.map_some, Option.some.injEq] at hstop
  exact ⟨_, rfl, hconstruct, rfl, rfl, suite, rest, hsome, by rw [hstop],
    areClausesOf_of_clausesIn hrest⟩

theorem exists_of_definitionIn {outer : Span} {s : Statement}
    (h : definitionIn source outer children = some s) :
    ∃ n ∈ children, ∃ c, s = .compound c ∧ IsConstructOf source outer n c := by
  induction children with
  | nil =>
    rw [definitionIn] at h
    cases h
  | cons n rest ih =>
    obtain ⟨kind, label, span, children⟩ := n
    rw [definitionIn] at h
    split_ifs at h
    · exact ⟨_, List.mem_cons_self, exists_isConstructOf (n := ⟨kind, label, span, children⟩) h⟩
    · obtain ⟨n, hn, hmade⟩ := ih h
      exact ⟨n, List.mem_cons_of_mem _ hn, hmade⟩

theorem exists_of_matchCases {clauses : List Clause} (h : matchCases source children = some clauses)
    (hne : clauses ≠ []) : ∃ n ∈ children, casesIn source n.children = some clauses := by
  induction children with
  | nil =>
    rw [matchCases] at h
    exact absurd (Option.some.inj h).symm hne
  | cons n rest ih =>
    obtain ⟨kind, label, span, children⟩ := n
    rw [matchCases] at h
    split_ifs at h
    · exact ⟨_, List.mem_cons_self, h⟩
    · obtain ⟨n, hn, hcases⟩ := ih h
      exact ⟨n, List.mem_cons_of_mem _ hn, hcases⟩

/-- What a statement that is made of a node can be. A compound statement is made of the node itself
or of one of its children: the definition under decorators, or the block of a `match`. -/
inductive IsStatementOf (source : Text) (n : Node) : Statement → Prop where
  | expression :
      IsStatementOf source n (.expression (n.span.trimEnd source) (soleExpression source n))
  | inert (type : Text) : IsStatementOf source n (.inert (n.span.trimEnd source) type)
  | construct {m : Node} {c : Construct} (hm : m ∈ n :: n.children)
      (hc : IsConstructOf source n.span m c) : IsStatementOf source n (.compound c)
  | selection {m : Node} {c : Construct} (hm : m ∈ n :: n.children)
      (hc : IsSelectionOf source n.span m c) : IsStatementOf source n (.compound c)

theorem isStatementOf_getD {made : Option Statement} {type : Text}
    (h : ∀ s ∈ made, ∃ m ∈ n :: n.children, ∃ c, s = .compound c ∧
      IsConstructOf source n.span m c) :
    IsStatementOf source n (made.getD (.inert (n.span.trimEnd source) type)) := by
  cases made with
  | none => exact .inert type
  | some s =>
    obtain ⟨m, hm, c, rfl, hc⟩ := h s rfl
    exact .construct hm hc

/-- What lowering makes of a node is a statement of it. -/
theorem isStatementOf_statement (n : Node) : IsStatementOf source n (statement source n) := by
  obtain ⟨kind, label, span, children⟩ := n
  rw [statement.eq_def]
  dsimp only
  split
  · exact .expression
  · -- a `match`, with its cases in its block or among its own children
    split
    · next clause rest hcases =>
      split_ifs at hcases
      · obtain ⟨m, hm, hcases⟩ := exists_of_matchCases hcases (List.cons_ne_nil _ _)
        exact .selection (List.mem_cons_of_mem _ hm)
          ⟨rfl, rfl, List.cons_ne_nil _ _, areClausesOf_of_casesIn hcases⟩
      · exact .selection List.mem_cons_self
          ⟨rfl, rfl, List.cons_ne_nil _ _, areClausesOf_of_casesIn hcases⟩
    · exact .inert _
  · -- a definition under decorators
    refine isStatementOf_getD (n := ⟨_, label, span, children⟩) fun s hs ↦ ?_
    obtain ⟨m, hm, hmade⟩ := exists_of_definitionIn hs
    exact ⟨m, List.mem_cons_of_mem _ hm, hmade⟩
  · refine isStatementOf_getD (n := ⟨kind, label, span, children⟩) fun s hs ↦
      ⟨_, List.mem_cons_self, ?_⟩
    exact exists_isConstructOf (n := ⟨kind, label, span, children⟩) hs

/-! ### Well-formed statements -/

/-- A node in a text with nothing wrong at any depth. -/
structure IsSound (source : Text) (n : Node) : Prop where
  length : n.span.stop ≤ source.length
  arranged : ∀ m ∈ n.all, m.IsArranged source
  unproblematic : ∀ m ∈ n.all, m.ownProblem? = none

namespace IsSound

theorem self (h : IsSound source n) : n.IsArranged source := h.arranged n n.mem_all_self

theorem of_mem (h : IsSound source n) (hm : m ∈ n.all) : IsSound source m where
  length := (Node.contains_of_mem_all h.arranged hm).stop.trans h.length
  arranged u hu := h.arranged u (Node.all_subset hm hu)
  unproblematic u hu := h.unproblematic u (Node.all_subset hm hu)

theorem child (h : IsSound source n) (hm : m ∈ n.children) : IsSound source m :=
  h.of_mem (n.inner_subset (Node.mem_inner n.mem_all_self hm))

end IsSound

theorem IsStatementOf.span_eq {s : Statement} (h : IsStatementOf source n s) :
    s.span = n.span.trimEnd source := by
  cases h with
  | expression => rfl
  | inert => rfl
  | construct _ hc => exact hc.span
  | selection _ hc => exact hc.span

theorem span_statement (n : Node) : (statement source n).span = n.span.trimEnd source :=
  (isStatementOf_statement n).span_eq

/-- A statement that begins on code is trimmed, and inside its node. -/
theorem isTrimmed_statement (h : IsSound source n) (hcode : n.span.BeginsOnCode source) :
    (statement source n).span.IsTrimmed source ∧ n.span.Contains (statement source n).span := by
  rw [span_statement]
  exact hcode.isTrimmed_trimEnd h.length

theorem mem_children_of_mem_code (h : m ∈ n.code) : m ∈ n.children := (List.mem_filter.mp h).1

/-- A block whose statements begin on code is well-formed. -/
theorem isWellFormed_block (h : IsSound source n)
    (hcode : ∀ s ∈ n.code, s.span.BeginsOnCode source) :
    (block source n).IsWellFormed source := by
  have htrimmed : ∀ m ∈ n.code, (statement source m).span.IsTrimmed source ∧
      m.span.Contains (statement source m).span := fun m hm ↦
    isTrimmed_statement (h.child (mem_children_of_mem_code hm)) (hcode m hm)
  rw [block_eq]
  refine ⟨rfl, rfl, List.forall_mem_map.mpr fun m hm ↦ (htrimmed m hm).1, List.pairwise_map.mpr ?_,
    List.forall_mem_map.mpr fun m hm ↦ ?_⟩
  · refine (h.self.apart.sublist List.filter_sublist).imp_of_mem fun {a b} ha hb hle ↦ ?_
    exact (htrimmed a ha).2.stop.trans (hle.trans (htrimmed b hb).2.start)
  · have hinside := (h.self.nested m (mem_children_of_mem_code hm)).trans (htrimmed m hm).2
    exact (Span.trimEnd_of_contains hinside (htrimmed m hm).1 h.length).2.1

/-- A clause that spans at least its suite is well-formed, and no blank at its end makes it
longer. -/
theorem isWellFormed_clause {suite : Node} {range : Span} (h : IsSound source n)
    (hsuite : n.suite? = some suite) (hinside : range.Contains suite.span)
    (hlength : range.stop ≤ source.length) (role : Role) :
    (⟨role, range.trimEnd source, block source suite⟩ : Clause).IsWellFormed source ∧
      range.Contains (range.trimEnd source) := by
  obtain ⟨hkind, hcode⟩ := h.self.suite suite hsuite
  have hsound := h.child (Node.mem_children_of_suite? hsuite)
  have hblock := isWellFormed_block hsound hcode
  -- the first statement of the suite is code in every span that holds the suite
  obtain ⟨m, hm⟩ :=
    List.exists_mem_of_ne_nil _ (Node.code_ne_nil hkind (hsound.unproblematic _ suite.mem_all_self))
  obtain ⟨htrimmed, hstatement⟩ :=
    isTrimmed_statement (hsound.child (mem_children_of_mem_code hm)) (hcode m hm)
  have hheld := (hsound.self.nested m (mem_children_of_mem_code hm)).trans hstatement
  obtain ⟨hbody, -, hcut⟩ := Span.trimEnd_of_contains hheld htrimmed hsound.length
  obtain ⟨hspan, hholds, hrange⟩ := Span.trimEnd_of_contains (hinside.trans hcut) hbody hlength
  refine ⟨⟨hspan, ?_, hblock, ?_⟩, hrange⟩
  · rw [block_eq]
    exact hholds
  · rw [block_eq]
    exact List.ne_nil_of_mem (List.mem_map_of_mem hm)

theorem IsClauseOf.isWellFormed {cl : Clause} (hcl : IsClauseOf source n cl)
    (h : IsSound source n) :
    cl.IsWellFormed source ∧ n.span.Contains cl.span := by
  obtain ⟨role, span, body⟩ := cl
  obtain ⟨rfl, suite, hsuite, rfl⟩ := hcl
  exact isWellFormed_clause h hsuite (h.self.nested suite (Node.mem_children_of_suite? hsuite))
    h.length role

/-- Clauses that are made of nodes one after the other are one after the other. -/
theorem AreClausesOf.apart {p : Node → Bool} {clauses : List Clause}
    (h : AreClausesOf source p children clauses) (hsound : ∀ n ∈ children, IsSound source n)
    (hapart : children.Pairwise fun a b ↦ a.span.stop ≤ b.span.start) :
    clauses.Pairwise fun a b ↦ a.span.stop ≤ b.span.start := by
  induction h with
  | nil => exact .nil
  | skip _ _ ih => exact ih (List.forall_mem_cons.mp hsound).2 hapart.tail
  | @take n cl nodes clauses hn hcl rest ih =>
    rw [List.forall_mem_cons] at hsound
    obtain ⟨hfirst, hrest⟩ := List.pairwise_cons.mp hapart
    refine List.pairwise_cons.mpr ⟨fun d hd ↦ ?_, ih hsound.2 hrest⟩
    obtain ⟨m, hm, -, hmade⟩ := rest.exists_of_mem d hd
    exact (hcl.isWellFormed hsound.1).2.stop.trans
      ((hfirst m hm).trans (hmade.isWellFormed (hsound.2 m hm)).2.start)

/-- A construct whose clauses are inside the whole before it is trimmed is well-formed if they
are. -/
theorem isWellFormed_of_clauses {c : Construct} {outer : Span}
    (hlength : outer.stop ≤ source.length) (hspan : c.span = outer.trimEnd source)
    (hdropped : c.dropped = []) (hne : c.clauses ≠ [])
    (hclauses : ∀ cl ∈ c.clauses, cl.IsWellFormed source ∧ outer.Contains cl.span)
    (hapart : c.clauses.Pairwise fun a b ↦ a.span.stop ≤ b.span.start) : c.IsWellFormed source where
  dropped := hdropped
  nonempty := hne
  clauses cl hcl := (hclauses cl hcl).1
  apart := hapart
  inside cl hcl := by
    obtain ⟨hcl, hinside⟩ := hclauses cl hcl
    rw [hspan]
    exact (Span.trimEnd_of_contains hinside hcl.trimmed hlength).2.1

theorem IsConstructOf.isWellFormed {c : Construct} (hc : IsConstructOf source n.span m c)
    (h : IsSound source n) (hm : m ∈ n :: n.children) : c.IsWellFormed source := by
  have hsound := h.of_mem (Node.mem_all_of_mem_cons hm)
  have hinside := Node.contains_of_mem_all h.arranged (Node.mem_all_of_mem_cons hm)
  obtain ⟨hconstruct, hspan, hdropped, suite, rest, hsuite, hclauses, hrest⟩ := hc
  have hnested := hsound.self.nested suite (Node.mem_children_of_suite? hsuite)
  -- the first clause starts with the statement, decorators included, and ends with its block
  have hfrom : ({ n.span with stop := suite.span.stop } : Span).Contains suite.span :=
    ⟨(hinside.trans hnested).start, le_rfl⟩
  have hwhole : n.span.Contains { n.span with stop := suite.span.stop } :=
    ⟨le_rfl, (hinside.trans hnested).stop⟩
  obtain ⟨hprimary, hcut⟩ :=
    isWellFormed_clause hsound hsuite hfrom (hnested.stop.trans hsound.length) .primary
  refine isWellFormed_of_clauses h.length hspan hdropped ?_ ?_ ?_
  · rw [hclauses]
    exact List.cons_ne_nil _ _
  · rw [hclauses]
    refine List.forall_mem_cons.mpr ⟨⟨hprimary, hwhole.trans hcut⟩, fun cl hcl ↦ ?_⟩
    obtain ⟨x, hx, -, hmade⟩ := hrest.exists_of_mem cl hcl
    obtain ⟨hwell, hspan⟩ := hmade.isWellFormed (hsound.child hx)
    exact ⟨hwell, hinside.trans ((hsound.self.nested x hx).trans hspan)⟩
  · rw [hclauses]
    refine List.pairwise_cons.mpr
      ⟨fun cl hcl ↦ ?_, hrest.apart (fun x ↦ hsound.child) hsound.self.apart⟩
    obtain ⟨x, hx, hrole, hmade⟩ := hrest.exists_of_mem cl hcl
    exact hcut.stop.trans ((hsound.self.follows hconstruct suite hsuite x hx hrole).trans
      (hmade.isWellFormed (hsound.child hx)).2.start)

theorem IsSelectionOf.isWellFormed {c : Construct} (hc : IsSelectionOf source n.span m c)
    (h : IsSound source n) (hm : m ∈ n :: n.children) : c.IsWellFormed source := by
  have hsound := h.of_mem (Node.mem_all_of_mem_cons hm)
  have hinside := Node.contains_of_mem_all h.arranged (Node.mem_all_of_mem_cons hm)
  refine isWellFormed_of_clauses h.length hc.span hc.dropped hc.nonempty (fun cl hcl ↦ ?_)
    (hc.clauses.apart (fun x ↦ hsound.child) hsound.self.apart)
  obtain ⟨x, hx, -, hmade⟩ := hc.clauses.exists_of_mem cl hcl
  obtain ⟨hwell, hspan⟩ := hmade.isWellFormed (hsound.child hx)
  exact ⟨hwell, hinside.trans ((hsound.self.nested x hx).trans hspan)⟩

/-- The block of each clause of a compound statement is that of the suite of a node. -/
theorem exists_suite {c : Construct} (h : IsStatementOf source n (.compound c)) :
    ∀ cl ∈ c.clauses, ∃ m ∈ n.all, ∃ suite, m.suite? = some suite ∧
      cl.body = block source suite := by
  have hclause : ∀ {m : Node} {p : Node → Bool} {clauses : List Clause}, m ∈ n :: n.children →
      AreClausesOf source p m.children clauses →
      ∀ cl ∈ clauses, ∃ m ∈ n.all, ∃ suite, m.suite? = some suite ∧
        cl.body = block source suite := by
    intro m p clauses hm hmade cl hcl
    obtain ⟨x, hx, -, -, hsuite⟩ := hmade.exists_of_mem cl hcl
    exact ⟨x, n.inner_subset (Node.mem_inner (Node.mem_all_of_mem_cons hm) hx), hsuite⟩
  cases h with
  | construct hm hc =>
    obtain ⟨suite, rest, hsuite, hclauses, hrest⟩ := hc.clauses
    rw [hclauses]
    exact List.forall_mem_cons.mpr
      ⟨⟨_, Node.mem_all_of_mem_cons hm, suite, hsuite, rfl⟩, hclause hm hrest⟩
  | selection hm hc => exact hclause hm hc.clauses

/-- A suite in a node is inside it. -/
theorem mem_inner_of_suite? {suite : Node} (hm : m ∈ n.all) (hsuite : m.suite? = some suite) :
    suite ∈ n.inner :=
  Node.mem_inner hm (Node.mem_children_of_suite? hsuite)

/-- Every statement inside the statement that is made of a sound node is well-formed. -/
theorem isWellFormed_statement (h : IsSound source n) :
    ∀ u ∈ (statement source n).all, u.IsWellFormed source := by
  induction n using Node.induct with
  | node n ih =>
    have hmade : IsStatementOf source n (statement source n) := isStatementOf_statement n
    cases hs : statement source n with
    | expression span value =>
      rw [Statement.all_expression]
      exact List.forall_mem_singleton.mpr trivial
    | inert span type =>
      rw [Statement.all_inert]
      exact List.forall_mem_singleton.mpr trivial
    | placeholder span =>
      rw [hs] at hmade
      cases hmade
    | compound c =>
      rw [hs] at hmade
      refine Statement.forall_all_compound.mpr ⟨?_, fun cl hcl s hs ↦ ?_⟩
      · cases hmade with
        | construct hm hc => exact hc.isWellFormed h hm
        | selection hm hc => exact hc.isWellFormed h hm
      · obtain ⟨m, hm, suite, hsuite, hbody⟩ := exists_suite hmade cl hcl
        rw [hbody, block_eq] at hs
        obtain ⟨x, hx, rfl⟩ := List.mem_map.mp hs
        have hinner : x ∈ n.inner :=
          Node.mem_inner (n.inner_subset (mem_inner_of_suite? hm hsuite))
            (mem_children_of_mem_code hx)
        exact ih x hinner (h.of_mem (n.inner_subset hinner))

/-- Lowering a concrete syntax tree with nothing wrong in it gives a well-formed tree. -/
theorem isWellFormed_tree {root : Node} (h : root.IsTreeOf source)
    (hproblem : root.problem? = none) : (Tree.mk source (block source root)).IsWellFormed := by
  have hsound : IsSound source root :=
    ⟨h.length, h.arranged, (Node.problem?_eq_none_iff root).mp hproblem⟩
  refine ⟨isWellFormed_block hsound h.statements, Block.forall_all.mpr fun s hs ↦ ?_⟩
  rw [block_eq] at hs
  obtain ⟨n, hn, rfl⟩ := List.mem_map.mp hs
  exact isWellFormed_statement (hsound.child (mem_children_of_mem_code hn))

end Lowering

/-- Lowering a concrete syntax tree in which the check for syntax errors finds nothing gives a
well-formed statement tree: in it nothing is missing and no block is marked as emptied, every
construct has a clause and every clause a statement, and the spans of its parts are trimmed, one
after the other and inside each other. So it is fresh and ordered, as pruning assumes. -/
theorem Node.IsTreeOf.isWellFormed_lower {source : Text} {root : Node} (h : root.IsTreeOf source)
    (hproblem : root.problem? = none) :
    (Tree.mk source (Lowering.block source root)).IsWellFormed ∧
    (Tree.mk source (Lowering.block source root)).IsFresh ∧
    (Tree.mk source (Lowering.block source root)).IsOrdered := by
  have hwell : (Tree.mk source (Lowering.block source root)).IsWellFormed :=
    Lowering.isWellFormed_tree h hproblem
  exact ⟨hwell, hwell.isFresh, hwell.isOrdered⟩

/-- A definition under a decorator, with a `match` and a `try` in it. -/
def decoratedText : Text := "@d\ndef f():\n match x:\n  case 1: g() \n try: h()\n finally: pass\n"

/-- The definition starts with its decorator, and the blank behind the call in the `case` is in no
span. -/
theorem Node.isWellFormed_lower_decorated :
    (parse decoratedText).IsTreeOf decoratedText ∧ (parse decoratedText).problem? = none ∧
    (Tree.mk decoratedText (Lowering.block decoratedText (parse decoratedText))).IsWellFormed ∧
    (Tree.mk decoratedText (Lowering.block decoratedText (parse decoratedText))).IsFresh ∧
    (Tree.mk decoratedText (Lowering.block decoratedText (parse decoratedText))).IsOrdered ∧
    (Lowering.block decoratedText (parse decoratedText)).all.map (·.span) =
      [⟨0, 61⟩, ⟨13, 35⟩, ⟨32, 35⟩, ⟨38, 61⟩, ⟨43, 46⟩, ⟨57, 61⟩] := by
  have htree : (parse decoratedText).IsTreeOf decoratedText := by decide +kernel
  have hproblem : (parse decoratedText).problem? = none := by decide +kernel
  obtain ⟨hwell, hfresh, hordered⟩ := htree.isWellFormed_lower hproblem
  exact ⟨htree, hproblem, hwell, hfresh, hordered, by decide +kernel⟩

end Python

end Declutter
