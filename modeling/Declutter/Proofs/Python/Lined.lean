import Declutter.Proofs.Python.Lowering
import Declutter.Proofs.Python.Reading
/-!
How nodes lie on their lines. Statements, and the clauses of a construct, are spaced: between two of
them there is no code, and at most one semicolon (`Node.AreSpaced`). A statement that holds no block
ends with a token (`Node.IsStatement`), one that holds a block with its line, and between the start
of a construct or a clause and its block there is a colon (`Source.HasColon`).

A node is lined (`Node.IsLined`) if that is so of the statements, the clauses and the blocks in it.
-/

set_option autoImplicit false
set_option relaxedAutoImplicit false

namespace Declutter.Python

variable [Source] {i j k i' j' : Nat}

/-! ### Spacing -/

namespace Source

/-- Between two offsets there is at most one semicolon, comments aside, and no code. -/
def Spaced (i j : Nat) : Prop := ∃ n ≤ 1, Spacing Source.text n i j

/-- Between two offsets there is a colon. -/
def HasColon (i j : Nat) : Prop :=
  ∃ colon, i ≤ colon ∧ colon < j ∧ IsColonAt colon

theorem spaced_of_spacing (h : Spacing Source.text 0 i j) : Spaced i j := ⟨0, Nat.zero_le _, h⟩

theorem Spaced.trans_spacing (h : Spaced i k) (h' : Spacing Source.text 0 k j) : Spaced i j := by
  obtain ⟨n, hn, h⟩ := h
  exact ⟨n, hn, h.trans h'⟩

theorem spaced_of_semicolon (h : Spacing Source.text 0 i k) (hk : IsSemicolonAt k)
    (h' : Spacing Source.text 0 (k + 1) j) : Spaced i j :=
  ⟨0 + (0 + 1), le_rfl, h.trans (.semicolon hk h')⟩

theorem HasColon.mono (h : HasColon i j) (hi : i' ≤ i) (hj : j ≤ j') : HasColon i' j' := by
  obtain ⟨colon, hle, hlt, hcolon⟩ := h
  exact ⟨colon, hi.trans hle, hlt.trans_le hj, hcolon⟩

theorem beginsOnCode {s : Span} (hlt : s.start < s.stop) (hcode : IsCodeAt s.start) :
    s.BeginsOnCode Source.text :=
  ⟨hlt, Text.not_hasAt_of_hasAt (fun _ hu ↦ (CodeUnit.isCode_iff.mp hu).1) hcode⟩

end Source

namespace Kind

/-- The statement forms that hold blocks. -/
def isCompound (kind : Kind) : Bool :=
  kind.isConstruct || kind = .matchStatement || kind = .decoratedDefinition

/-- The forms of statements and clauses that hold blocks. -/
def holdsBlock (kind : Kind) : Bool := kind.isCompound || kind.isClause

omit [Source] in
theorem ne_of_holds {p : Kind → Bool} {kind other : Kind} (h : p kind = true)
    (hother : p other = false) : kind ≠ other := fun heq ↦
  Bool.noConfusion (h.symm.trans ((congrArg p heq).trans hother))

end Kind

namespace Node

variable {n : Node} {nodes nodes' : List Node}

/-- Nodes one after the other from `i` up to `j`, with no code between them. -/
structure AreSpaced (i : Nat) (nodes : List Node) (j : Nat) : Prop where
  first : ∀ n ∈ nodes.head?, Spacing Source.text 0 i n.span.start
  next : nodes.IsChain fun a b ↦ Source.Spaced a.span.stop b.span.start
  last : ∀ n ∈ nodes.getLast?, Source.Spaced n.span.stop j
  empty : nodes = [] → Spacing Source.text 0 i j

theorem areSpaced_nil (h : Spacing Source.text 0 i j) : AreSpaced i [] j :=
  ⟨nofun, .nil, nofun, fun _ ↦ h⟩

theorem areSpaced_singleton (h : Spacing Source.text 0 i n.span.start) :
    AreSpaced i [n] n.span.stop where
  first _ hm := Option.some.inj hm ▸ h
  next := List.isChain_singleton n
  last _ hm := Option.some.inj hm ▸ Source.spaced_of_spacing (.refl _)
  empty h := absurd h (List.cons_ne_nil _ _)

/-- What stands between tokens may follow. -/
theorem AreSpaced.extend (h : AreSpaced i nodes k) (h' : Spacing Source.text 0 k j) :
    AreSpaced i nodes j :=
  ⟨h.first, h.next, fun n hn ↦ (h.last n hn).trans_spacing h', fun hnil ↦ (h.empty hnil).trans h'⟩

theorem AreSpaced.append (h : AreSpaced i nodes k) (h' : AreSpaced k nodes' j) :
    AreSpaced i (nodes ++ nodes') j := by
  cases nodes with
  | nil =>
    exact ⟨fun n hn ↦ (h.empty rfl).trans (h'.first n hn), h'.next, h'.last,
      fun hnil ↦ (h.empty rfl).trans (h'.empty hnil)⟩
  | cons m rest =>
    cases nodes' with
    | nil => exact (List.append_nil (m :: rest)).symm ▸ h.extend (h'.empty rfl)
    | cons m' rest' =>
      refine ⟨h.first, List.isChain_append.mpr ⟨h.next, h'.next, fun a ha b hb ↦ ?_⟩,
        fun n hn ↦ ?_, fun hnil ↦ absurd hnil (List.cons_ne_nil _ _)⟩
      · exact (h.last a ha).trans_spacing (h'.first b hb)
      · refine h'.last n ?_
        rwa [List.getLast?_append_of_ne_nil _ (List.cons_ne_nil _ _)] at hn

/-- Nodes that are spaced behind another one make a chain with it. -/
theorem AreSpaced.isChain_cons (h : AreSpaced n.span.stop nodes j) :
    (n :: nodes).IsChain fun a b ↦ Source.Spaced a.span.stop b.span.start :=
  List.isChain_cons.mpr ⟨fun m hm ↦ Source.spaced_of_spacing (h.first m hm), h.next⟩

/-- The last one of the nodes ends there. -/
def EndAt (nodes : List Node) (j : Nat) : Prop := ∃ n ∈ nodes.getLast?, n.span.stop = j

omit [Source] in
@[grind ←]
theorem endAt_singleton (h : n.span.stop = j) : EndAt [n] j := ⟨n, rfl, h⟩

omit [Source] in
@[grind ←]
theorem endAt_concat (nodes : List Node) (h : n.span.stop = j) : EndAt (nodes ++ [n]) j :=
  ⟨n, List.getLast?_concat, h⟩

/-- A semicolon may follow a node. -/
theorem AreSpaced.semicolon (h : AreSpaced i nodes k) (hlast : EndAt nodes k)
    (hk : Spacing Source.text 0 k j) (hj : Source.IsSemicolonAt j) :
    AreSpaced i nodes (j + 1) := by
  obtain ⟨m, hm, hstop⟩ := hlast
  refine ⟨h.first, h.next, fun n hn ↦ ?_, fun hnil ↦ ?_⟩
  · obtain rfl := Option.some.inj (hm.symm.trans hn)
    exact Source.spaced_of_semicolon (hstop ▸ hk) hj (.refl _)
  · rw [hnil] at hm
    cases hm

/-- The node begins with code. -/
structure IsItem (n : Node) : Prop where
  lt : n.span.start < n.span.stop
  code : Source.IsCodeAt n.span.start

/-- A statement: unless it holds a block, it ends with code. -/
structure IsStatement (n : Node) : Prop where
  isExtra : n.kind.isExtra = false
  ends : n.kind.isCompound = true ∨ Source.EndsCode n.span.stop

/-- Nodes of one kind that begin with code, one after the other, unless something is wrong with
them. -/
def AreItems (p : Node → Prop) (i : Nat) (nodes : List Node) (j : Nat) : Prop :=
  (∀ n ∈ nodes, n.problem? = none) → (∀ n ∈ nodes, n.IsItem ∧ p n) ∧ AreSpaced i nodes j

variable {p : Node → Prop}

theorem areItems_nil (h : Spacing Source.text 0 i j) : AreItems p i [] j :=
  fun _ ↦ ⟨List.forall_mem_nil _, areSpaced_nil h⟩

theorem areItems_singleton (h : Spacing Source.text 0 i n.span.start) (hn : n.IsItem) (hp : p n) :
    AreItems p i [n] n.span.stop :=
  fun _ ↦ ⟨List.forall_mem_singleton.mpr ⟨hn, hp⟩, areSpaced_singleton h⟩

theorem AreItems.extend (h : AreItems p i nodes k) (h' : Spacing Source.text 0 k j) :
    AreItems p i nodes j :=
  fun hnone ↦ ⟨(h hnone).1, (h hnone).2.extend h'⟩

theorem AreItems.append (h : AreItems p i nodes k) (h' : AreItems p k nodes' j) :
    AreItems p i (nodes ++ nodes') j := fun hnone ↦ by
  rw [List.forall_mem_append] at hnone
  obtain ⟨hitems, hspaced⟩ := h hnone.1
  obtain ⟨hitems', hspaced'⟩ := h' hnone.2
  exact ⟨List.forall_mem_append.mpr ⟨hitems, hitems'⟩, hspaced.append hspaced'⟩

theorem AreItems.semicolon (h : AreItems p i nodes k) (hlast : EndAt nodes k)
    (hk : Spacing Source.text 0 k j) (hj : Source.IsSemicolonAt j) :
    AreItems p i nodes (j + 1) :=
  fun hnone ↦ ⟨(h hnone).1, (h hnone).2.semicolon hlast hk hj⟩

/-- Nothing is asked of what is behind an error. -/
theorem areItems_error (i : Nat) (nodes : List Node) (span : Span) (j : Nat) :
    AreItems p i (nodes ++ [⟨.error, none, span, []⟩]) j := fun hnone ↦
  absurd (hnone _ (List.mem_append_right _ (List.mem_singleton_self _))) (Option.some_ne_none _)

attribute [grind ←] areItems_nil areItems_error
grind_pattern AreItems.extend => AreItems p i nodes k, AreItems p i nodes j
grind_pattern AreItems.append => nodes ++ nodes', AreItems p i nodes k, AreItems p k nodes' j
grind_pattern AreItems.semicolon =>
  AreItems p i nodes k, Spacing Source.text 0 k j, Source.IsSemicolonAt j

/-! ### Lined nodes -/

/-- How the blocks in a node lie on their lines, and the nodes between them. -/
structure IsLined (n : Node) : Prop where
  closes : n.kind.holdsBlock = true → Source.Closes n.span.stop
  items : n.kind = .block → (∀ s ∈ n.children, s.IsItem) ∧
    n.children.IsChain fun a b ↦ Source.Spaced a.span.stop b.span.start
  suite : (n.kind.isConstruct || n.kind.isClause) = true → ∃ b, n.suite? = some b ∧
    Source.HasColon n.span.start b.span.start ∧ Source.Closes b.span.stop ∧
    ∀ s ∈ b.children, s.IsStatement
  clauses : n.kind.isConstruct = true → ∀ b ∈ n.suite?,
    (b :: n.children.filter (·.clauseRole?.isSome)).IsChain
        (fun a b ↦ Source.Spaced a.span.stop b.span.start) ∧
      ∀ c ∈ n.children, c.clauseRole?.isSome = true → c.IsItem
  cases : n.kind = .matchStatement → ∃ before b, n.children = before ++ [b] ∧
    (∀ m ∈ before, m.plays .body = false) ∧ b.label = some .body ∧ b.kind = .block ∧
      ∀ c ∈ b.children, c.kind = .caseClause
  definition : n.kind = .decoratedDefinition → ∃ before d, n.children = before ++ [d] ∧
    (∀ m ∈ before, m.plays .definition = false) ∧ d.label = some .definition ∧
      (d.kind = .functionDefinition ∨ d.kind = .classDefinition)

/-- Nothing is asked of a node that holds no block and is none. -/
theorem isLined_of_kind (hkind : n.kind.holdsBlock = false) (hblock : n.kind ≠ .block) :
    n.IsLined := by
  rw [Kind.holdsBlock, Kind.isCompound, Bool.or_eq_false_iff, Bool.or_eq_false_iff,
    Bool.or_eq_false_iff, decide_eq_false_iff_not, decide_eq_false_iff_not] at hkind
  obtain ⟨⟨⟨hconstruct, hmatch⟩, hdecorated⟩, hclause⟩ := hkind
  refine ⟨fun h ↦ ?_, fun h ↦ absurd h hblock, fun h ↦ ?_, fun h ↦ ?_, fun h ↦ absurd h hmatch,
    fun h ↦ absurd h hdecorated⟩
  · simp [Kind.holdsBlock, Kind.isCompound, hconstruct, hmatch, hdecorated, hclause] at h
  · simp [hconstruct, hclause] at h
  · simp [hconstruct] at h

end Node

end Declutter.Python
