import Declutter.Proofs.Python.Lined
/-!
What is read of a node. A node is sound (`Node.IsSound`) if the nodes in it are arranged and lined,
unless something is wrong in it. A node that holds no block is sound if its parts are and lie one
after the other in its span (`Node.AreLaid`): whether they do that, is all that most rules of the
grammar have to answer for.
-/

set_option autoImplicit false
set_option relaxedAutoImplicit false

namespace Declutter.Python

variable [Source]

namespace Kind

/-- Neither a block nor a clause, and nothing that is no part of the code. -/
def isPhrase : Kind → Bool
  | .block | .elifClause | .elseClause | .exceptClause | .finallyClause | .caseClause => false
  | .comment | .lineContinuation => false
  | _ => true

attribute [grind =] isConstruct isClause isPhrase isCompound holdsBlock

end Kind

namespace Node

/-! ### Sound nodes -/

/-- A call is made of a function and of arguments that begin with a parenthesis. -/
def IsSpelt (source : Text) (n : Node) : Prop := n.kind = .call → ∃ function arguments,
  n.children = [function, arguments] ∧ arguments.span.start < arguments.span.stop ∧
    source.hasAt (· == '(') arguments.span.start = true

/-- Unless something is wrong in the node, all nodes in it are arranged and lined, and its calls are
spelt. -/
def IsSound (n : Node) : Prop :=
  n.problem? = none → ∀ m ∈ n.all, m.IsArranged Source.text ∧ m.IsLined ∧ m.IsSpelt Source.text

/-- Sound nodes, one after the other between two offsets as long as nothing is wrong with them. -/
def AreLaid : Nat → List Node → Nat → Prop
  | i, [], j => i ≤ j
  | i, n :: rest, j => (n.problem? = none → i ≤ n.span.start ∧ n.span.start ≤ n.span.stop) ∧
    n.IsSound ∧ AreLaid n.span.stop rest j

variable {i i' j j' k start stop : Nat} {n : Node} {nodes nodes' children : List Node} {kind : Kind}
  {label : Option Label}

@[grind =]
theorem areLaid_nil : AreLaid i [] j ↔ i ≤ j := .rfl

@[grind =]
theorem areLaid_cons : AreLaid i (n :: nodes) j ↔
    (n.problem? = none → i ≤ n.span.start ∧ n.span.start ≤ n.span.stop) ∧ n.IsSound ∧
      AreLaid n.span.stop nodes j := .rfl

theorem AreLaid.mono (h : AreLaid i nodes j) (hi : i' ≤ i) (hj : j ≤ j') : AreLaid i' nodes j' := by
  induction nodes generalizing i i' with
  | nil => exact hi.trans (h.trans hj)
  | cons n rest ih =>
    exact ⟨fun hn ↦ ⟨hi.trans (h.1 hn).1, (h.1 hn).2⟩, h.2.1, ih h.2.2 le_rfl⟩

theorem AreLaid.append (h : AreLaid i nodes k) (h' : AreLaid i' nodes' j) (hk : k ≤ i') :
    AreLaid i (nodes ++ nodes') j := by
  induction nodes generalizing i with
  | nil => exact h'.mono (h.trans hk) le_rfl
  | cons n rest ih => exact ⟨h.1, h.2.1, ih h.2.2⟩

theorem AreLaid.cons (h : AreLaid i [n] k) (h' : AreLaid i' nodes j) (hk : k ≤ i') :
    AreLaid i (n :: nodes) j :=
  h.append h' hk

theorem AreLaid.concat (h : AreLaid i nodes j) (hj : j ≤ n.span.start)
    (hle : n.span.start ≤ n.span.stop) (hn : n.IsSound) : AreLaid i (nodes ++ [n]) n.span.stop :=
  h.append ⟨fun _ ↦ ⟨le_rfl, hle⟩, hn, le_rfl⟩ hj

/-- A stretch that fits no rule may lie anywhere. -/
theorem AreLaid.concat_error (h : AreLaid i nodes k) (j stop : Nat) :
    AreLaid i (nodes ++ [⟨.error, none, ⟨j, stop⟩, []⟩]) stop := by
  have herror : problem? ⟨.error, none, ⟨j, stop⟩, []⟩ ≠ none := Option.some_ne_none _
  have hlaid : AreLaid k [⟨.error, none, ⟨j, stop⟩, []⟩] stop :=
    ⟨fun hnone ↦ absurd hnone herror, fun hnone ↦ absurd hnone herror, le_rfl⟩
  exact h.append hlaid le_rfl

grind_pattern AreLaid.mono => AreLaid i nodes j, AreLaid i' nodes j' where
  guard AreLaid i nodes j
grind_pattern AreLaid.append => nodes ++ nodes', AreLaid i nodes k, AreLaid i' nodes' j where
  guard AreLaid i nodes k
  guard AreLaid i' nodes' j
grind_pattern AreLaid.cons => n :: nodes, AreLaid i [n] k, AreLaid i' nodes j where
  nodes =/= []
  guard AreLaid i [n] k
  guard AreLaid i' nodes j
grind_pattern AreLaid.concat => nodes ++ [n], AreLaid i nodes j where
  guard AreLaid i nodes j
grind_pattern AreLaid.concat_error =>
  nodes ++ [(⟨.error, none, ⟨j, stop⟩, []⟩ : Node)], AreLaid i nodes k

/-- Nodes that are laid lie in the order of the text, if nothing is wrong with them. -/
theorem AreLaid.arranged (h : AreLaid i nodes j) (hnodes : ∀ n ∈ nodes, n.problem? = none) :
    i ≤ j ∧ (∀ n ∈ nodes, (⟨i, j⟩ : Span).Contains n.span) ∧
    nodes.Pairwise fun a b ↦ a.span.stop ≤ b.span.start := by
  induction nodes generalizing i with
  | nil => exact ⟨h, List.forall_mem_nil _, List.Pairwise.nil⟩
  | cons n rest ih =>
    rw [List.forall_mem_cons] at hnodes
    obtain ⟨hspan, -, hrest⟩ := h
    obtain ⟨hstart, hstop⟩ := hspan hnodes.1
    obtain ⟨hle, hinside, happart⟩ := ih hrest hnodes.2
    refine ⟨by omega, List.forall_mem_cons.mpr ⟨⟨hstart, hle⟩, fun m hm ↦ ?_⟩,
      List.pairwise_cons.mpr ⟨fun m hm ↦ (hinside m hm).start, happart⟩⟩
    exact ⟨(hstart.trans hstop).trans (hinside m hm).start, (hinside m hm).stop⟩

/-- A node is sound if it is arranged and lined and its children are sound. -/
theorem isSound_of_children (h : (∀ c ∈ n.children, c.problem? = none) →
      (n.IsArranged Source.text ∧ n.IsLined ∧ n.IsSpelt Source.text) ∧
        ∀ c ∈ n.children, c.IsSound) :
    n.IsSound := by
  intro hproblem
  have hnone := ((problem?_eq_none_iff_children n).mp hproblem).2
  obtain ⟨hn, hchildren⟩ := h hnone
  rw [all_eq, List.forall_mem_cons]
  exact ⟨hn, List.forall_mem_flatMap.mpr fun c hc ↦ hchildren c hc (hnone c hc)⟩

/-- A sound node is arranged, lined and spelt itself. -/
theorem IsSound.self (h : n.IsSound) (hproblem : n.problem? = none) :
    n.IsArranged Source.text ∧ n.IsLined ∧ n.IsSpelt Source.text :=
  h hproblem n n.mem_all_self

/-- What is in a sound node is sound, if nothing is wrong with the node. -/
theorem IsSound.of_mem_children {c : Node} (h : n.IsSound) (hproblem : n.problem? = none)
    (hc : c ∈ n.children) : c.IsSound := fun _ m hm ↦
  h hproblem m (all_subset (n.inner_subset (mem_inner n.mem_all_self hc)) hm)

theorem AreLaid.isSound (h : AreLaid i nodes j) : ∀ n ∈ nodes, n.IsSound := by
  induction nodes generalizing i with
  | nil => exact List.forall_mem_nil _
  | cons n rest ih => exact List.forall_mem_cons.mpr ⟨h.2.1, ih h.2.2⟩

/-- A node whose children are laid is sound if that does for its suite and it is lined. -/
theorem isSound_of_suite (h : AreLaid start children stop)
    (hspelt : IsSpelt Source.text ⟨kind, label, ⟨start, stop⟩, children⟩)
    (hlined : (∀ c ∈ children, c.problem? = none) →
      IsLined ⟨kind, label, ⟨start, stop⟩, children⟩)
    (hsuite : (∀ c ∈ children, c.problem? = none) →
      (children.Pairwise fun a b ↦ a.span.stop ≤ b.span.start) →
      ∀ b ∈ suite? ⟨kind, label, ⟨start, stop⟩, children⟩,
        (b.kind = .block ∧ ∀ s ∈ b.code, s.span.BeginsOnCode Source.text) ∧
        (kind.isConstruct = true → ∀ c ∈ children, c.clauseRole?.isSome = true →
          b.span.stop ≤ c.span.start)) :
    IsSound ⟨kind, label, ⟨start, stop⟩, children⟩ := by
  refine isSound_of_children fun hchildren ↦ ⟨⟨?_, hlined hchildren, hspelt⟩, h.isSound⟩
  obtain ⟨-, hnested, hapart⟩ := h.arranged hchildren
  exact ⟨hnested, hapart, fun b hb ↦ (hsuite hchildren hapart b hb).1,
    fun hconstruct b hb ↦ (hsuite hchildren hapart b hb).2 hconstruct⟩

/-- A node without a suite is sound if its parts are and it is lined. -/
theorem isSound_of_isLined (h : AreLaid start children stop) (hconstruct : kind.isConstruct = false)
    (hclause : kind.isClause = false) (hcall : kind ≠ .call)
    (hlined : (∀ c ∈ children, c.problem? = none) →
      IsLined ⟨kind, label, ⟨start, stop⟩, children⟩) :
    IsSound ⟨kind, label, ⟨start, stop⟩, children⟩ := by
  refine isSound_of_suite h (fun heq ↦ absurd heq hcall) hlined fun _ _ b hb ↦ ?_
  rw [suite?, if_neg (by simp [hconstruct]), if_neg (by simp [hclause])] at hb
  cases hb

/-- A node that holds no block is sound if its parts are. -/
theorem isSound_mk (h : AreLaid start children stop) (hkind : kind.holdsBlock = false)
    (hblock : kind ≠ .block) (hcall : kind ≠ .call) :
    IsSound ⟨kind, label, ⟨start, stop⟩, children⟩ := by
  have hplain := hkind
  rw [Kind.holdsBlock, Kind.isCompound] at hplain
  simp only [Bool.or_eq_false_iff] at hplain
  exact isSound_of_isLined h hplain.1.1.1 hplain.2 hcall fun _ ↦ isLined_of_kind hkind hblock

theorem isSound_call {function arguments : Node} (h : AreLaid start [function, arguments] stop)
    (hlt : arguments.span.start < arguments.span.stop)
    (hspelt : Source.IsOpenAt arguments.span.start) :
    IsSound ⟨.call, label, ⟨start, stop⟩, [function, arguments]⟩ :=
  isSound_of_suite h (fun _ ↦ ⟨_, _, rfl, hlt, hspelt⟩) (fun _ ↦ isLined_of_kind rfl nofun)
    fun _ _ _ hb ↦ (Option.not_mem_none _ hb).elim

grind_pattern isSound_mk => IsSound (⟨kind, label, ⟨start, stop⟩, children⟩ : Node)
grind_pattern isSound_call => IsSound (⟨.call, label, ⟨start, stop⟩, [function, arguments]⟩ : Node)

section Part

omit [Source]

variable (l : Label) (n : Node)

@[grind =]
theorem span_as : (n.as l).span = n.span := rfl

@[grind =]
theorem kind_as : (n.as l).kind = n.kind := rfl

@[grind =]
theorem label_as : (n.as l).label = some l := rfl

@[grind =]
theorem children_as : (n.as l).children = n.children := rfl

@[grind =]
theorem problem?_as : (n.as l).problem? = n.problem? := by
  obtain ⟨kind, label, span, children⟩ := n
  rw [Node.as, problem?, problem?]
  rfl

end Part

theorem isArranged_as (l : Label) (n : Node) :
    (n.as l).IsArranged Source.text ↔ n.IsArranged Source.text :=
  ⟨fun h ↦ ⟨h.nested, h.apart, h.suite, h.follows⟩, fun h ↦ ⟨h.nested, h.apart, h.suite, h.follows⟩⟩

theorem isLined_as (l : Label) (n : Node) : (n.as l).IsLined ↔ n.IsLined :=
  ⟨fun h ↦ ⟨h.closes, h.items, h.suite, h.clauses, h.cases, h.definition⟩,
    fun h ↦ ⟨h.closes, h.items, h.suite, h.clauses, h.cases, h.definition⟩⟩

/-- The part that a node plays does not matter to what is in it. -/
@[grind =]
theorem isSound_as (l : Label) (n : Node) : (n.as l).IsSound ↔ n.IsSound := by
  rw [IsSound, IsSound, problem?_as, all_eq, all_eq, List.forall_mem_cons, List.forall_mem_cons,
    isArranged_as, isLined_as]
  exact Iff.rfl

theorem AreLaid.as {n : Node} (h : AreLaid i [n] j) (l : Label) : AreLaid i [n.as l] j := by
  obtain ⟨hspan, hsound, hle⟩ := h
  exact ⟨problem?_as l n ▸ hspan, (isSound_as l n).mpr hsound, hle⟩

grind_pattern AreLaid.as => n.as l, AreLaid i [n] j

/-! ### Nodes that are read -/

section Phrase

omit [Source]

/-- A node that is neither a block nor a clause and plays neither the part of a block nor that of a
definition. -/
structure IsPhrase (n : Node) : Prop where
  label : n.label ≠ some .body ∧ n.label ≠ some .consequence ∧ n.label ≠ some .definition
  kind : n.kind.isPhrase = true

def ArePhrases (nodes : List Node) : Prop := ∀ n ∈ nodes, n.IsPhrase

@[grind =]
theorem isPhrase_mk (kind : Kind) (span : Span) (children : List Node) :
    IsPhrase ⟨kind, none, span, children⟩ ↔ kind.isPhrase = true :=
  ⟨IsPhrase.kind, fun h ↦ ⟨⟨nofun, nofun, nofun⟩, h⟩⟩

@[grind ←]
theorem IsPhrase.as_name (h : n.IsPhrase) : (n.as .name).IsPhrase :=
  ⟨⟨nofun, nofun, nofun⟩, h.kind⟩

@[grind =]
theorem arePhrases_nil : ArePhrases [] ↔ True := iff_true_intro (List.forall_mem_nil _)

@[grind =]
theorem arePhrases_cons : ArePhrases (n :: nodes) ↔ n.IsPhrase ∧ ArePhrases nodes :=
  List.forall_mem_cons

@[grind =]
theorem arePhrases_append :
    ArePhrases (nodes ++ nodes') ↔ ArePhrases nodes ∧ ArePhrases nodes' :=
  List.forall_mem_append

end Phrase

/-- The node begins with code at the cursor, blanks aside. -/
structure Begins (c : Cursor) (n : Node) : Prop where
  start_le : c.offset ≤ n.span.start
  gap : Spacing Source.text 0 c.lastEnd n.span.start
  code : Source.IsCodeAt n.span.start
  start_eq : StartsToken c.rest → n.span.start = c.offset

/-- The node ends with the last token before the cursor. -/
structure Ends (n : Node) (c : Cursor) : Prop where
  lt : n.span.start < n.span.stop
  stop_eq : n.span.stop = c.lastEnd
  sound : n.IsSound

/-- One phrase or more, read between two cursors. -/
structure AreRead (c : Cursor) (nodes : List Node) (c' : Cursor) : Prop where
  laid : AreLaid c.offset nodes c'.lastEnd
  lt : c.offset < c'.lastEnd
  ends : Source.EndsCode c'.lastEnd
  code : StartsToken c.rest → Source.IsCodeAt c.offset
  phrases : ArePhrases nodes

attribute [grind →] Begins.start_le Begins.gap Begins.code Begins.start_eq
  Ends.lt Ends.stop_eq Ends.sound
  AreRead.laid AreRead.lt AreRead.ends AreRead.code AreRead.phrases
attribute [grind intro] Begins Ends AreRead

/-- A phrase read between two cursors. -/
@[grind]
def IsRead (c : Cursor) (n : Node) (c' : Cursor) : Prop :=
  n.IsPhrase ∧ Begins c n ∧ n.Ends c' ∧ Source.EndsCode c'.lastEnd

/-- What a reader has to read of a symbol: a compound statement, or else a phrase. -/
@[grind]
def IsReadAs (symbol : Symbol) (c : Cursor) (n : Node) (c' : Cursor) : Prop :=
  n.Begins c ∧ n.Ends c' ∧
    (symbol = .compound ∧ n.kind.isCompound = true ∨ n.IsPhrase ∧ Source.EndsCode c'.lastEnd)

/-- One part or more, the first one of them given, that make up a node. On its own the first part is
the node. -/
@[grind]
def AreJoined (c : Cursor) (first : Node) (parts : List Node) (c' : Cursor) : Prop :=
  parts.head? = some first ∧ 0 < parts.length ∧ first.span.start = c.offset ∧
    AreRead c parts c' ∧ (parts.length = 1 → first.IsRead c c')

/-- The node is read from an offset on, of which the given parts have been read before. -/
@[grind]
def Completes (start : Nat) (parts : List Node) (c : Cursor) (n : Node) (c' : Cursor) : Prop :=
  n.IsPhrase ∧ n.span = ⟨start, c'.lastEnd⟩ ∧
    (Source.EndsCode c.lastEnd → Source.EndsCode c'.lastEnd) ∧
    (AreLaid start parts c.lastEnd → n.IsSound)

theorem Begins.areLaid {c c' : Cursor} (h : n.Begins c) (hends : n.Ends c') :
    AreLaid c.offset [n] c'.lastEnd :=
  ⟨fun _ ↦ ⟨h.start_le, hends.lt.le⟩, hends.sound, hends.stop_eq.le⟩

@[grind →]
theorem IsRead.areRead {c c' : Cursor} (h : n.IsRead c c') : AreRead c [n] c' := by
  obtain ⟨hphrase, hbegins, hends, hcode⟩ := h
  refine ⟨hbegins.areLaid hends, ?_, hcode, ?_, ?_⟩
  · exact hbegins.start_le.trans_lt (hends.lt.trans_le hends.stop_eq.le)
  · exact fun htoken ↦ hbegins.start_eq htoken ▸ hbegins.code
  · exact List.forall_mem_singleton.mpr hphrase

/-! ### A star in front of an expression -/

section Star

variable {m : Node}

omit [Source] in
theorem isPhrase_of_star? (h : n.star? start = some m) (hn : n.IsPhrase) :
    m.IsPhrase := by
  fun_induction star? start n generalizing m with
  | case1 label span function rest =>
    obtain ⟨starred, -, rfl⟩ := Option.map_eq_some_iff.mp h
    exact ⟨hn.label, rfl⟩
  | case2 n hcall hplace =>
    obtain rfl := Option.some.inj h
    exact ⟨⟨nofun, nofun, nofun⟩, rfl⟩
  | case3 n hcall hplace => cases h

omit [Source] in
theorem span_of_star? (h : n.star? start = some m) : m.span = ⟨start, n.span.stop⟩ := by
  fun_induction star? start n generalizing m with
  | case1 label span function rest =>
    obtain ⟨starred, -, rfl⟩ := Option.map_eq_some_iff.mp h
    rfl
  | case2 n hcall hplace =>
    obtain rfl := Option.some.inj h
    rfl
  | case3 n hcall hplace => cases h

omit [Source] in
/-- Nothing was wrong with an expression if nothing is wrong with it once the star is put before
it. -/
theorem problem?_of_star? (h : n.star? start = some m) (hm : m.problem? = none) :
    n.problem? = none := by
  fun_induction star? start n generalizing m with
  | case1 label span function rest ih =>
    obtain ⟨starred, hstarred, rfl⟩ := Option.map_eq_some_iff.mp h
    have hchildren := ((problem?_eq_none_iff_children _).mp hm).2
    rw [List.forall_mem_cons, problem?_as] at hchildren
    refine (problem?_eq_none_iff_children _).mpr ⟨rfl, ?_⟩
    exact List.forall_mem_cons.mpr ⟨ih hstarred hchildren.1, hchildren.2⟩
  | case2 n hcall hplace =>
    obtain rfl := Option.some.inj h
    exact ((problem?_eq_none_iff_children _).mp hm).2 n List.mem_cons_self
  | case3 n hcall hplace => cases h

/-- A sound expression with a star put before it is sound. -/
theorem isSound_of_star? (h : n.star? start = some m) (hstart : start ≤ n.span.start)
    (hn : n.IsSound) : m.IsSound := by
  fun_induction star? start n generalizing m with
  | case1 label span function rest ih =>
    obtain ⟨starred, hstarred, rfl⟩ := Option.map_eq_some_iff.mp h
    have hspan := span_of_star? hstarred
    refine isSound_of_children fun hchildren ↦ ?_
    rw [List.forall_mem_cons, problem?_as] at hchildren
    have hproblem : problem? ⟨.call, label, span, function :: rest⟩ = none :=
      (problem?_eq_none_iff_children _).mpr ⟨rfl,
        List.forall_mem_cons.mpr ⟨problem?_of_star? hstarred hchildren.1, hchildren.2⟩⟩
    obtain ⟨⟨hnested, hapart, -, -⟩, -, hspelt⟩ := hn.self hproblem
    rw [List.forall_mem_cons] at hnested
    rw [List.pairwise_cons] at hapart
    have hsound := ih hstarred (hstart.trans hnested.1.start)
      (hn.of_mem_children hproblem List.mem_cons_self)
    refine ⟨⟨⟨?_, ?_, nofun, nofun⟩, isLined_of_kind rfl nofun, fun _ ↦ ?_⟩, ?_⟩
    · refine List.forall_mem_cons.mpr ⟨⟨?_, ?_⟩, fun c hc ↦ ?_⟩
      · rw [span_as, hspan]
      · rw [span_as, hspan]
        exact hnested.1.stop
      · exact ⟨hstart.trans (hnested.2 c hc).start, (hnested.2 c hc).stop⟩
    · refine List.pairwise_cons.mpr ⟨fun c hc ↦ ?_, hapart.2⟩
      rw [span_as, hspan]
      exact hapart.1 c hc
    · obtain ⟨function', arguments, hchildren', hlt, hopen⟩ := hspelt rfl
      obtain ⟨rfl, rfl⟩ := List.cons.inj hchildren'
      exact ⟨_, arguments, rfl, hlt, hopen⟩
    · exact List.forall_mem_cons.mpr ⟨(isSound_as _ _).mpr hsound, fun c hc ↦
        hn.of_mem_children hproblem (List.mem_cons_of_mem _ hc)⟩
  | case2 n hcall hplace =>
    obtain rfl := Option.some.inj h
    refine isSound_of_children fun hchildren ↦
      ⟨⟨⟨?_, ?_, nofun, nofun⟩, isLined_of_kind rfl nofun, nofun⟩, ?_⟩
    · exact List.forall_mem_singleton.mpr ⟨hstart, le_rfl⟩
    · exact List.pairwise_singleton _ _
    · exact List.forall_mem_singleton.mpr hn
  | case3 n hcall hplace => cases h

end Star

end Node

end Declutter.Python
