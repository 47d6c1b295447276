import Declutter.Proofs.Python.Lined
/-!
How the statement tree of a text is laid out. Statements that hold blocks are lowered to compound
statements if the blocks are there (`Lowering.exists_compound_of_construct`,
`Lowering.exists_compound_of_decorated`, `Lowering.exists_compound_of_selection`), so that what is
left ends with a token. In a text in which no line goes on behind a backslash, the statement that is
made of a lined node is laid out at every depth (`Lowering.isLaidOut_statement`).
-/

set_option autoImplicit false
set_option relaxedAutoImplicit false

namespace Declutter.Python.Lowering

/-! ### Statements that hold blocks -/

section Compound

variable (source : Text) {n d b : Node} {children before : List Node} (outer : Span)

theorem exists_blockIn (hkind : n.kind.isClause = true) (hsuite : n.suite?.isSome = true) :
    ∃ body, blockIn source (Node.isSuiteOf n.children) n.children = some body := by
  rw [suite?_of_isClause hkind] at hsuite
  obtain ⟨suite, hsuite⟩ := Option.isSome_iff_exists.mp hsuite
  exact ⟨_, by rw [blockIn_eq, hsuite, Option.map_some]⟩

theorem exists_clausesIn
    (h : ∀ c ∈ children, c.clauseRole?.isSome = true → c.suite?.isSome = true) :
    ∃ clauses, clausesIn source children = some clauses := by
  induction children with
  | nil => exact ⟨[], by rw [clausesIn]⟩
  | cons n rest ih =>
    rw [List.forall_mem_cons] at h
    obtain ⟨clauses, hclauses⟩ := ih h.2
    obtain ⟨kind, label, span, children⟩ := n
    rw [clausesIn]
    split
    · exact ⟨clauses, hclauses⟩
    · next role hrole =>
      obtain ⟨body, hbody⟩ := exists_blockIn source (isClause_of_clauseRole? hrole)
        (h.1 (Option.isSome_of_mem hrole))
      rw [hbody, hclauses]
      exact ⟨_, rfl⟩

theorem exists_casesIn (h : ∀ c ∈ children, c.kind = .caseClause ∧ c.suite?.isSome = true) :
    ∃ clauses, casesIn source children = some clauses ∧ clauses.length = children.length := by
  induction children with
  | nil => exact ⟨[], by rw [casesIn], rfl⟩
  | cons n rest ih =>
    rw [List.forall_mem_cons] at h
    obtain ⟨clauses, hclauses, hlength⟩ := ih h.2
    obtain ⟨kind, label, span, children⟩ := n
    obtain ⟨⟨rfl, hsuite⟩, -⟩ := h
    obtain ⟨body, hbody⟩ := exists_blockIn source rfl hsuite
    rw [casesIn, if_pos rfl, hbody, hclauses]
    exact ⟨_, rfl, congrArg Nat.succ hlength⟩

theorem exists_construct? {kind : Kind} (children : List Node) (h : kind.isConstruct = true) :
    ∃ made label, construct? source kind children = some (made, label) := by
  cases kind <;> first | exact ⟨_, _, rfl⟩ | exact Bool.noConfusion h

/-- A node with a block of its own, whose clauses have blocks as well, gives a construct. -/
theorem exists_construct (hkind : n.kind.isConstruct = true) (hsuite : n.suite?.isSome = true)
    (hclauses : ∀ c ∈ n.children, c.clauseRole?.isSome = true → c.suite?.isSome = true) :
    ∃ c, construct source n.kind outer n.children (blockIn source (isFirstBlock n.kind) n.children)
      (clausesIn source n.children) = some (.compound c) ∧ IsConstructOf source outer n c := by
  obtain ⟨made, label, hmade⟩ := exists_construct? source n.children hkind
  obtain ⟨suite, hsuite⟩ := Option.isSome_iff_exists.mp hsuite
  obtain ⟨clauses, hclauses⟩ := exists_clausesIn source hclauses
  rw [Node.suite?, if_pos hkind] at hsuite
  have hstop : stopOf? label n.children = some suite.span.stop := by
    rw [(isFirstBlock_of_construct? hmade).2] at hsuite
    rw [stopOf?]
    exact congrArg (Option.map (·.span.stop)) hsuite
  have hbody : blockIn source (isFirstBlock n.kind) n.children = some (block source suite) := by
    rw [blockIn_eq, hsuite, Option.map_some]
  obtain ⟨s, hs⟩ : ∃ s, construct source n.kind outer n.children
      (blockIn source (isFirstBlock n.kind) n.children) (clausesIn source n.children) = some s := by
    rw [construct, hmade, hbody, hclauses]
    dsimp only [Option.bind_eq_bind, Option.bind_some]
    rw [hstop]
    exact ⟨_, rfl⟩
  obtain ⟨c, rfl, hc⟩ := exists_isConstructOf hs
  exact ⟨c, hs, hc⟩

theorem exists_compound_of_construct (hkind : n.kind.isConstruct = true)
    (hsuite : n.suite?.isSome = true)
    (hclauses : ∀ c ∈ n.children, c.clauseRole?.isSome = true → c.suite?.isSome = true) :
    ∃ c, statement source n = .compound c ∧ IsConstructOf source n.span n c := by
  obtain ⟨c, hmade, hc⟩ := exists_construct source n.span hkind hsuite hclauses
  refine ⟨c, ?_, hc⟩
  obtain ⟨kind, label, span, children⟩ := n
  rw [statement.eq_def]
  dsimp only at hkind hmade ⊢
  split
  · exact Bool.noConfusion hkind
  · exact Bool.noConfusion hkind
  · exact Bool.noConfusion hkind
  · rw [hmade, Option.getD_some]

theorem definitionIn_append (hbefore : ∀ m ∈ before, m.plays .definition = false)
    (hd : d.label = some .definition)
    (hkind : d.kind = .functionDefinition ∨ d.kind = .classDefinition) :
    definitionIn source outer (before ++ [d]) =
      construct source d.kind outer d.children (blockIn source (isFirstBlock d.kind) d.children)
        (clausesIn source d.children) := by
  induction before with
  | nil =>
    obtain ⟨kind, label, span, children⟩ := d
    rw [List.nil_append, definitionIn, if_pos hd, if_pos (by simpa using hkind)]
  | cons m rest ih =>
    rw [List.forall_mem_cons] at hbefore
    obtain ⟨kind, label, span, children⟩ := m
    rw [List.cons_append, definitionIn, if_neg (of_decide_eq_false hbefore.1), ih hbefore.2]

theorem exists_compound_of_decorated (hkind : n.kind = .decoratedDefinition)
    (hchildren : n.children = before ++ [d])
    (hbefore : ∀ m ∈ before, m.plays .definition = false) (hd : d.label = some .definition)
    (hdkind : d.kind = .functionDefinition ∨ d.kind = .classDefinition)
    (hsuite : d.suite?.isSome = true)
    (hclauses : ∀ c ∈ d.children, c.clauseRole?.isSome = true → c.suite?.isSome = true) :
    ∃ c, statement source n = .compound c ∧ IsConstructOf source n.span d c := by
  have hconstruct : d.kind.isConstruct = true := by
    obtain h | h := hdkind <;> rw [h] <;> rfl
  obtain ⟨c, hmade, hc⟩ := exists_construct source n.span hconstruct hsuite hclauses
  refine ⟨c, ?_, hc⟩
  obtain ⟨kind, label, span, children⟩ := n
  obtain rfl : kind = .decoratedDefinition := hkind
  obtain rfl : children = before ++ [d] := hchildren
  rw [statement, definitionIn_append source span hbefore hd hdkind, hmade, Option.getD_some]

theorem matchCases_append (hbefore : ∀ m ∈ before, m.plays .body = false)
    (hb : b.label = some .body) :
    matchCases source (before ++ [b]) = casesIn source b.children := by
  induction before with
  | nil =>
    obtain ⟨kind, label, span, children⟩ := b
    rw [List.nil_append, matchCases, if_pos hb]
  | cons m rest ih =>
    rw [List.forall_mem_cons] at hbefore
    obtain ⟨kind, label, span, children⟩ := m
    rw [List.cons_append, matchCases, if_neg (of_decide_eq_false hbefore.1), ih hbefore.2]

theorem exists_compound_of_selection (hkind : n.kind = .matchStatement)
    (hchildren : n.children = before ++ [b]) (hbefore : ∀ m ∈ before, m.plays .body = false)
    (hb : b.label = some .body) (hne : b.children ≠ [])
    (hcases : ∀ c ∈ b.children, c.kind = .caseClause ∧ c.suite?.isSome = true) :
    ∃ c, statement source n = .compound c ∧ IsSelectionOf source n.span b c := by
  obtain ⟨clauses, hclauses, hlength⟩ := exists_casesIn source hcases
  obtain ⟨kind, label, span, children⟩ := n
  obtain rfl : kind = .matchStatement := hkind
  obtain rfl : children = before ++ [b] := hchildren
  have hbody : (before ++ [b]).any (Node.plays .body) = true :=
    List.any_eq_true.mpr ⟨b, by simp, decide_eq_true hb⟩
  cases clauses with
  | nil => exact absurd (List.length_eq_zero_iff.mp hlength.symm) hne
  | cons clause rest =>
    refine ⟨⟨.selection, span.trimEnd source, clause :: rest, []⟩, ?_, rfl, rfl,
      List.cons_ne_nil _ _, areClausesOf_of_casesIn hclauses⟩
    rw [statement, if_pos hbody, matchCases_append source hbefore hb, hclauses]

theorem construct_eq_none {kind : Kind} (hkind : kind.isConstruct = false) (children : List Node)
    (body : Option Block) (clauses : Option (List Clause)) :
    construct source kind outer children body clauses = none := by
  have hmade : construct? source kind children = none := by
    cases kind <;> first | rfl | exact Bool.noConfusion hkind
  rw [construct, hmade]
  rfl

/-- Construct forms apart, only a `match` and a definition under decorators are compound. -/
theorem statement_ne_compound (hkind : n.kind.isCompound = false) (c : Construct) :
    statement source n ≠ .compound c := by
  obtain ⟨kind, label, span, children⟩ := n
  intro h
  rw [statement.eq_def] at h
  dsimp only at hkind h
  split at h
  · cases h
  · exact Bool.noConfusion hkind
  · exact Bool.noConfusion hkind
  · rw [Kind.isCompound, Bool.or_eq_false_iff, Bool.or_eq_false_iff] at hkind
    rw [construct_eq_none source span hkind.1.1, Option.getD_none] at h
    cases h

end Compound

variable [Source] {n m suite b : Node} {cl : Clause} {c : Construct}

/-! ### Trimmed spans on their lines -/

section Span

variable {s a b : Span}

theorem isCode_trimEnd (hlt : s.start < s.stop) (hcode : Source.IsCodeAt s.start)
    (hlength : s.stop ≤ Source.text.length) :
    (s.trimEnd Source.text).IsCode Source.text := by
  obtain ⟨htrimmed, -⟩ := (Source.beginsOnCode hlt hcode).isTrimmed_trimEnd hlength
  refine ⟨htrimmed.lt, htrimmed.length, Text.hasAt_mono (fun u hu ↦ ?_) hcode, htrimmed.last⟩
  obtain ⟨hblank, -, -, hsemicolon⟩ := CodeUnit.isCode_iff.mp hu
  rw [CodeUnit.isSolid, hblank, bne_iff_ne.mpr hsemicolon]
  rfl

/-- Where a line is closed, it is closed in front of the blanks, too. -/
theorem closesLine_trimEnd (hlt : s.start < s.stop) (hcode : Source.IsCodeAt s.start)
    (hlength : s.stop ≤ Source.text.length) (hcloses : Source.Closes s.stop)
    (hunbroken : Source.text.isUnbroken = true) :
    Source.text.closesLine (s.trimEnd Source.text).stop = true := by
  obtain ⟨-, hinside⟩ := (Source.beginsOnCode hlt hcode).isTrimmed_trimEnd hlength
  exact Text.closesLine_of_le hinside.stop (fun k ↦ Span.blank_of_trimEnd_le hlength)
    (hcloses hunbroken)

theorem not_semicolon_trimEnd (hlt : s.start < s.stop) (hlength : s.stop ≤ Source.text.length)
    (hends : Source.EndsCode s.stop) :
    ¬ Source.text.hasAt (· == ';') ((s.trimEnd Source.text).stop - 1) = true := by
  rw [Source.EndsCode, Source.IsCodeAt] at hends
  have hcode (p : CodeUnit → Bool) (hp : ∀ u : CodeUnit, u.isCode = true → p u = false) :
      ¬ Source.text.hasAt p (s.stop - 1) = true := Text.not_hasAt_of_hasAt hp hends
  -- nothing is trimmed off a span that ends with code
  obtain ⟨hle, hge, -⟩ := Span.trimEnd_stop hlength (k := s.stop - 1) (by omega) (by omega)
    (hcode _ fun u hu ↦ (CodeUnit.isCode_iff.mp hu).1)
  have heq : (s.trimEnd Source.text).stop = s.stop := by omega
  rw [heq]
  exact hcode _ fun u hu ↦ beq_eq_false_iff_ne.mpr (CodeUnit.isCode_iff.mp hu).2.2.2

/-- Spans that are spaced and begin with code follow each other once they are trimmed. -/
theorem isChain_trimEnd {spans : List Span} (hspans : ∀ s ∈ spans, s.start < s.stop ∧
      Source.IsCodeAt s.start ∧ s.stop ≤ Source.text.length)
    (h : spans.IsChain fun a b ↦ Source.Spaced a.stop b.start) :
    (spans.map (·.trimEnd Source.text)).IsChain (Span.FollowsInBlock Source.text) := by
  refine (List.isChain_map _).mpr (h.imp_of_mem_imp fun a b ha hb hspaced ↦ ?_)
  obtain ⟨k, hk, hspaced⟩ := hspaced
  obtain ⟨hlt, hcode, hlength⟩ := hspans a ha
  obtain ⟨-, hinside⟩ := (Source.beginsOnCode hlt hcode).isTrimmed_trimEnd hlength
  have hblank : Spacing Source.text 0 (a.trimEnd Source.text).stop a.stop :=
    .of_forall hinside.stop fun k hk hlt ↦ by
      refine Text.hasAt_mono (fun u hu ↦ ?_) (Span.blank_of_trimEnd_le hlength hk hlt)
      rw [CodeUnit.isFiller, hu]
      rfl
  have hboth := hblank.trans hspaced
  rw [Nat.zero_add] at hboth
  exact ⟨⟨hboth.le, hboth.uncommented (hspans b hb).2.1⟩, hboth.count_uncomment.trans_le hk⟩

end Span

/-! ### Orderly nodes -/

/-- A node in a text with nothing wrong at any depth, whose blocks lie on their lines. -/
structure IsOrderly (n : Node) : Prop extends IsSound Source.text n where
  lined : ∀ m ∈ n.all, m.IsLined

namespace IsOrderly

theorem of_mem (h : IsOrderly n) (hm : m ∈ n.all) : IsOrderly m :=
  ⟨h.toIsSound.of_mem hm, fun u hu ↦ h.lined u (Node.all_subset hm hu)⟩

theorem child (h : IsOrderly n) (hm : m ∈ n.children) : IsOrderly m :=
  h.of_mem (n.inner_subset (Node.mem_inner n.mem_all_self hm))

theorem isLined (h : IsOrderly n) : n.IsLined := h.lined n n.mem_all_self

end IsOrderly

omit [Source] in
theorem isConstruct_or_isClause (h : n.suite? = some suite) :
    (n.kind.isConstruct || n.kind.isClause) = true := by
  rw [Node.suite?] at h
  split_ifs at h with hconstruct hclause
  · rw [hconstruct, Bool.true_or]
  · rw [hclause, Bool.or_true]

omit [Source] in
theorem holdsBlock_of_suite? (h : n.suite? = some suite) : n.kind.holdsBlock = true := by
  have hkind := isConstruct_or_isClause h
  rw [Bool.or_eq_true] at hkind
  rw [Kind.holdsBlock, Kind.isCompound]
  obtain hkind | hkind := hkind <;> simp [hkind]

/-- The suite of an orderly node is a block of statements behind a colon. -/
theorem IsOrderly.block_of_suite? (h : IsOrderly n) (hsuite : n.suite? = some suite) :
    Source.HasColon n.span.start suite.span.start ∧ Source.Closes suite.span.stop ∧
      ∀ s ∈ suite.children, s.IsItem ∧ s.IsStatement := by
  obtain ⟨b, hb, hcolon, hcloses, hstatements⟩ := h.isLined.suite (isConstruct_or_isClause hsuite)
  obtain rfl := Option.some.inj (hb.symm.trans hsuite)
  have hkind := (h.toIsSound.self.suite b hb).1
  have hitems := (h.child (Node.mem_children_of_suite? hb)).isLined.items hkind
  exact ⟨hcolon, hcloses, fun s hs ↦ ⟨hitems.1 s hs, hstatements s hs⟩⟩

/-! ### Blocks and clauses -/

/-- A block of spaced statements is laid out. -/
theorem isLaidOut_block (h : IsOrderly n) (hitems : ∀ s ∈ n.children, s.IsItem ∧ s.IsStatement)
    (hspaced : n.children.IsChain fun a b ↦ Source.Spaced a.span.stop b.span.start) :
    (block Source.text n).IsLaidOut Source.text := by
  have hcode : n.code = n.children := List.filter_eq_self.mpr fun s hs ↦ by
    rw [(hitems s hs).2.isExtra]
    rfl
  have hspans : (n.children.map (statement Source.text)).map (·.span) =
      (n.children.map (·.span)).map (·.trimEnd Source.text) := by
    rw [List.map_map, List.map_map]
    exact List.map_congr_left fun s _ ↦ span_statement s
  rw [block_eq, hcode]
  refine ⟨List.forall_mem_map.mpr fun s hs ↦ ?_, ?_⟩
  · rw [span_statement]
    exact isCode_trimEnd (hitems s hs).1.lt (hitems s hs).1.code (h.child hs).length
  · dsimp only
    rw [hspans]
    refine isChain_trimEnd (List.forall_mem_map.mpr fun s hs ↦ ?_)
      ((List.isChain_map _).mpr hspaced)
    exact ⟨(hitems s hs).1.lt, (hitems s hs).1.code, (h.child hs).length⟩

/-- A clause that spans at least its suite and ends with its line is laid out. -/
theorem isLaidOut_clause {range : Span} (h : IsOrderly n) (hsuite : n.suite? = some suite)
    (hinside : range.Contains suite.span) (hstart : range.start ≤ n.span.start)
    (hcode : Source.IsCodeAt range.start) (hlength : range.stop ≤ Source.text.length)
    (hcloses : Source.Closes range.stop) (hunbroken : Source.text.isUnbroken = true) (role : Role) :
    (⟨role, range.trimEnd Source.text, block Source.text suite⟩ : Clause).IsLaidOut
      Source.text := by
  obtain ⟨hwell, hcut⟩ := isWellFormed_clause h.toIsSound hsuite hinside hlength role
  obtain ⟨⟨colon, hle, hlt, hcolon⟩, -, hitems⟩ := h.block_of_suite? hsuite
  have hkind := (h.toIsSound.self.suite suite hsuite).1
  have horderly := h.child (Node.mem_children_of_suite? hsuite)
  have hrange : range.start < range.stop := hwell.trimmed.lt.trans_le hcut.stop
  have hbody : (block Source.text suite).span.start = suite.span.start := by
    rw [block_eq]
    rfl
  exact {
    code := isCode_trimEnd hrange hcode hlength
    header := ⟨⟨range.start, colon + 1⟩, rfl, colon, rfl, hstart.trans hle, hbody ▸ hlt,
      hcolon⟩
    body := isLaidOut_block horderly hitems (horderly.isLined.items hkind).2
    body_stop_le := hwell.inside.stop
    statements := fun s hs ↦ ⟨(hwell.body.inside s hs).start, (hwell.body.inside s hs).stop⟩
    closes := closesLine_trimEnd hrange hcode hlength hcloses hunbroken }

theorem IsClauseOf.isLaidOut (hcl : IsClauseOf Source.text n cl) (h : IsOrderly n)
    (hitem : n.IsItem) (hunbroken : Source.text.isUnbroken = true) : cl.IsLaidOut Source.text := by
  obtain ⟨role, span, body⟩ := cl
  obtain ⟨rfl, suite, hsuite, rfl⟩ := hcl
  have hnested := h.toIsSound.self.nested suite (Node.mem_children_of_suite? hsuite)
  exact isLaidOut_clause h hsuite hnested le_rfl hitem.code h.length
    (h.isLined.closes (holdsBlock_of_suite? hsuite)) hunbroken role

/-! ### Compound statements -/

/-- What is left to show of a construct that is made of orderly nodes: how its clauses lie. -/
theorem isLaidOut_of_clauses (h : IsOrderly n) (hitem : n.IsItem)
    (hkind : n.kind.holdsBlock = true) (hspan : c.span = n.span.trimEnd Source.text)
    (hwell : c.IsWellFormed Source.text) (hclauses : ∀ cl ∈ c.clauses, cl.IsLaidOut Source.text)
    (hfollows : (c.clauses.map (·.span)).IsChain (Span.FollowsInBlock Source.text))
    (hunbroken : Source.text.isUnbroken = true) : c.IsLaidOut Source.text where
  clauses := hclauses
  inside cl hcl := ⟨(hwell.inside cl hcl).start, (hwell.inside cl hcl).stop⟩
  follows := hfollows.imp fun _ _ ↦ Span.FollowsInBlock.toFollows
  closes := hspan ▸
    closesLine_trimEnd hitem.lt hitem.code h.length (h.isLined.closes hkind) hunbroken

theorem IsConstructOf.isLaidOut (hc : IsConstructOf Source.text n.span m c) (h : IsOrderly n)
    (hm : m ∈ n :: n.children) (hitem : n.IsItem) (hkind : n.kind.holdsBlock = true)
    (hunbroken : Source.text.isUnbroken = true) : c.IsLaidOut Source.text := by
  have horderly := h.of_mem (Node.mem_all_of_mem_cons hm)
  have hinside := Node.contains_of_mem_all h.arranged (Node.mem_all_of_mem_cons hm)
  obtain ⟨suite, rest, hsuite, hclauses, hrest⟩ := hc.clauses
  obtain ⟨-, hcloses, -⟩ := horderly.block_of_suite? hsuite
  obtain ⟨hchain, hclauseItems⟩ := horderly.isLined.clauses hc.isConstruct suite hsuite
  have hnested := hinside.trans
    (horderly.toIsSound.self.nested suite (Node.mem_children_of_suite? hsuite))
  have hprimary : ({ n.span with stop := suite.span.stop } : Span).Contains suite.span :=
    ⟨hnested.start, le_rfl⟩
  have hfirst := isLaidOut_clause horderly hsuite hprimary hinside.start hitem.code
    (hnested.stop.trans h.length) hcloses hunbroken .primary
  refine isLaidOut_of_clauses h hitem hkind hc.span (hc.isWellFormed h.toIsSound hm) ?_ ?_ hunbroken
  · rw [hclauses]
    refine List.forall_mem_cons.mpr ⟨hfirst, fun cl hcl ↦ ?_⟩
    obtain ⟨x, hx, hrole, hmade⟩ := hrest.exists_of_mem cl hcl
    exact hmade.isLaidOut (horderly.child hx) (hclauseItems x hx hrole) hunbroken
  · -- the first clause ends with its suite, and starts with the statement
    have hspans : (({ n.span with stop := suite.span.stop } : Span) ::
        (m.children.filter (·.clauseRole?.isSome)).map (·.span)).IsChain
          fun a b ↦ Source.Spaced a.stop b.start := by
      cases hfilter : m.children.filter (·.clauseRole?.isSome) with
      | nil => exact List.isChain_singleton _
      | cons x others =>
        rw [hfilter, List.isChain_cons_cons] at hchain
        exact List.isChain_cons_cons.mpr
          ⟨hchain.1, (List.isChain_map (l := x :: others) (·.span)).mpr hchain.2⟩
    obtain ⟨hwell, hcut⟩ := isWellFormed_clause horderly.toIsSound hsuite hprimary
      (hnested.stop.trans h.length) .primary
    rw [hclauses, List.map_cons, hrest.map_span]
    refine isChain_trimEnd (List.forall_mem_cons.mpr ⟨?_, ?_⟩) hspans
    · exact ⟨hwell.trimmed.lt.trans_le hcut.stop, hitem.code, hnested.stop.trans h.length⟩
    · refine List.forall_mem_map.mpr fun x hx ↦ ?_
      obtain ⟨hx, hrole⟩ := List.mem_filter.mp hx
      have hx' := hclauseItems x hx hrole
      exact ⟨hx'.lt, hx'.code, (horderly.child hx).length⟩

theorem IsSelectionOf.isLaidOut (hc : IsSelectionOf Source.text n.span b c) (h : IsOrderly n)
    (hb : b ∈ n.children) (hitem : n.IsItem) (hkind : n.kind.holdsBlock = true)
    (hblock : b.kind = .block) (hcases : ∀ x ∈ b.children, x.kind = .caseClause)
    (hunbroken : Source.text.isUnbroken = true) : c.IsLaidOut Source.text := by
  have horderly := h.child hb
  obtain ⟨hitems, hchain⟩ := horderly.isLined.items hblock
  have hfilter : b.children.filter (·.kind = .caseClause) = b.children :=
    List.filter_eq_self.mpr fun x hx ↦ decide_eq_true (hcases x hx)
  refine isLaidOut_of_clauses h hitem hkind hc.span
    (hc.isWellFormed h.toIsSound (List.mem_cons_of_mem _ hb)) (fun cl hcl ↦ ?_) ?_ hunbroken
  · obtain ⟨x, hx, -, hmade⟩ := hc.clauses.exists_of_mem cl hcl
    exact hmade.isLaidOut (horderly.child hx) (hitems x hx) hunbroken
  · rw [hc.clauses.map_span, hfilter]
    refine isChain_trimEnd (List.forall_mem_map.mpr fun x hx ↦ ?_)
      ((List.isChain_map _).mpr hchain)
    exact ⟨(hitems x hx).lt, (hitems x hx).code, (horderly.child hx).length⟩

/-- The suites that lowering looks for are there. -/
theorem IsOrderly.isSome_suite? (h : IsOrderly n)
    (hkind : (n.kind.isConstruct || n.kind.isClause) = true) : n.suite?.isSome = true := by
  obtain ⟨b, hb, -⟩ := h.isLined.suite hkind
  exact Option.isSome_of_mem hb

theorem IsOrderly.isSome_suite?_of_clause (h : IsOrderly n) :
    ∀ c ∈ n.children, c.clauseRole?.isSome = true → c.suite?.isSome = true := fun c hc hrole ↦ by
  obtain ⟨role, hrole⟩ := Option.isSome_iff_exists.mp hrole
  refine (h.child hc).isSome_suite? ?_
  rw [isClause_of_clauseRole? hrole, Bool.or_true]

/-- A statement that holds blocks is lowered to a compound statement that is laid out. -/
theorem exists_isLaidOut (h : IsOrderly n) (hitem : n.IsItem) (hkind : n.kind.isCompound = true)
    (hunbroken : Source.text.isUnbroken = true) :
    ∃ c, statement Source.text n = .compound c ∧ c.IsLaidOut Source.text := by
  have hholds : n.kind.holdsBlock = true := by rw [Kind.holdsBlock, hkind, Bool.true_or]
  rw [Kind.isCompound, Bool.or_eq_true, Bool.or_eq_true, decide_eq_true_iff,
    decide_eq_true_iff] at hkind
  obtain (hconstruct | hmatch) | hdecorated := hkind
  · obtain ⟨c, hs, hc⟩ := exists_compound_of_construct Source.text hconstruct
      (h.isSome_suite? (by rw [hconstruct, Bool.true_or])) h.isSome_suite?_of_clause
    exact ⟨c, hs, hc.isLaidOut h List.mem_cons_self hitem hholds hunbroken⟩
  · obtain ⟨before, b, hchildren, hbefore, hlabel, hblock, hcases⟩ := h.isLined.cases hmatch
    have hb : b ∈ n.children := hchildren ▸ List.mem_append_right _ (List.mem_singleton_self b)
    have hcode := Node.code_ne_nil hblock ((h.child hb).unproblematic b b.mem_all_self)
    have hne : b.children ≠ [] := fun hnil ↦ hcode (by rw [Node.code, hnil, List.filter_nil])
    have hsuites : ∀ x ∈ b.children, x.kind = .caseClause ∧ x.suite?.isSome = true := fun x hx ↦
      ⟨hcases x hx, ((h.child hb).child hx).isSome_suite? (by rw [hcases x hx]; rfl)⟩
    obtain ⟨c, hs, hc⟩ :=
      exists_compound_of_selection Source.text hmatch hchildren hbefore hlabel hne hsuites
    exact ⟨c, hs, hc.isLaidOut h hb hitem hholds hblock hcases hunbroken⟩
  · obtain ⟨before, d, hchildren, hbefore, hlabel, hdkind⟩ := h.isLined.definition hdecorated
    have hd : d ∈ n.children := hchildren ▸ List.mem_append_right _ (List.mem_singleton_self d)
    have hsuite : d.suite?.isSome = true := (h.child hd).isSome_suite? (by
      obtain hdkind | hdkind := hdkind <;> rw [hdkind] <;> rfl)
    obtain ⟨c, hs, hc⟩ := exists_compound_of_decorated Source.text hdecorated hchildren hbefore
      hlabel hdkind hsuite (h.child hd).isSome_suite?_of_clause
    exact ⟨c, hs, hc.isLaidOut h (List.mem_cons_of_mem _ hd) hitem hholds hunbroken⟩

/-! ### Trees -/

/-- Every statement inside the statement that is made of an orderly node is laid out. -/
theorem isLaidOut_statement (h : IsOrderly n) (hitem : n.IsItem) (hn : n.IsStatement)
    (hunbroken : Source.text.isUnbroken = true) :
    ∀ u ∈ (statement Source.text n).all, u.IsLaidOut Source.text := by
  induction n using Node.induct with
  | node n ih =>
    have hmade : IsStatementOf Source.text n (statement Source.text n) := isStatementOf_statement n
    by_cases hkind : n.kind.isCompound = true
    · obtain ⟨c, hs, hc⟩ := exists_isLaidOut h hitem hkind hunbroken
      rw [hs] at hmade ⊢
      refine Statement.forall_all_compound.mpr ⟨hc, fun cl hcl s hs ↦ ?_⟩
      obtain ⟨m, hm, suite, hsuite, hbody⟩ := exists_suite hmade cl hcl
      obtain ⟨-, -, hitems⟩ := (h.of_mem hm).block_of_suite? hsuite
      rw [hbody, block_eq] at hs
      obtain ⟨x, hx, rfl⟩ := List.mem_map.mp hs
      have hx := mem_children_of_mem_code hx
      have hinner : x ∈ n.inner :=
        Node.mem_inner (n.inner_subset (mem_inner_of_suite? hm hsuite)) hx
      exact ih x hinner (h.of_mem (n.inner_subset hinner)) (hitems x hx).1 (hitems x hx).2
    · -- a leaf stops where its node does, as that ends with code
      have hends := hn.ends.resolve_left hkind
      have hspan : (statement Source.text n).span = n.span.trimEnd Source.text := span_statement n
      have hleaf := not_semicolon_trimEnd hitem.lt h.length hends
      rw [← hspan] at hleaf
      cases hs : statement Source.text n with
      | expression span value =>
        rw [hs] at hleaf
        rw [Statement.all_expression]
        exact List.forall_mem_singleton.mpr hleaf
      | inert span type =>
        rw [hs] at hleaf
        rw [Statement.all_inert]
        exact List.forall_mem_singleton.mpr hleaf
      | placeholder span =>
        rw [hs] at hmade
        cases hmade
      | compound c => exact absurd hs (statement_ne_compound _ (Bool.eq_false_iff.mpr hkind) c)

/-- The tree of an orderly module is laid out. -/
theorem isLaidOut_tree {root : Node} (h : IsOrderly root)
    (hitems : ∀ s ∈ root.children, s.IsItem ∧ s.IsStatement)
    (hspaced : root.children.IsChain fun a b ↦ Source.Spaced a.span.stop b.span.start)
    (hunbroken : Source.text.isUnbroken = true) :
    (Tree.mk Source.text (block Source.text root)).IsLaidOut := by
  refine ⟨isLaidOut_block h hitems hspaced, Block.forall_all.mpr fun s hs ↦ ?_⟩
  rw [block_eq] at hs
  obtain ⟨n, hn, rfl⟩ := List.mem_map.mp hs
  have hn := mem_children_of_mem_code hn
  exact isLaidOut_statement (h.child hn) (hitems n hn).1 (hitems n hn).2 hunbroken

end Declutter.Python.Lowering
