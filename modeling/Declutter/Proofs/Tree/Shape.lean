import Declutter.Proofs.Tree.Walk
import Declutter.Python.Lowering
/-!
The shape of a statement tree as it comes from a text. In a fresh tree nothing has been removed yet
and no block of a clause is empty; in an ordered one statements and clauses start one after the
other; in a grammatical one the clauses of every construct have roles that the grammar gives to its
kind. The block of the module may be empty.
-/

set_option autoImplicit false
set_option relaxedAutoImplicit false

namespace Declutter

/-! ### Fresh trees -/

/-- A construct from which no clause was dropped, with statements in the block of each of its
clauses. -/
structure Construct.IsFresh (c : Construct) : Prop where
  dropped : c.dropped = []
  clauses : c.clauses ≠ []
  excised : ∀ cl ∈ c.clauses, cl.body.excised = []
  statements : ∀ cl ∈ c.clauses, cl.body.statements ≠ []

instance (c : Construct) : Decidable c.IsFresh :=
  decidable_of_iff
    (c.dropped = [] ∧ c.clauses ≠ [] ∧ (∀ cl ∈ c.clauses, cl.body.excised = []) ∧
      ∀ cl ∈ c.clauses, cl.body.statements ≠ [])
    ⟨fun ⟨h₁, h₂, h₃, h₄⟩ ↦ ⟨h₁, h₂, h₃, h₄⟩, fun ⟨h₁, h₂, h₃, h₄⟩ ↦ ⟨h₁, h₂, h₃, h₄⟩⟩

/-- Whether a statement stands for one that was removed. -/
def Statement.isPlaceholder : Statement → Bool
  | .placeholder _ => true
  | _ => false

/-- A statement that is no placeholder and, if it is compound, a fresh construct. -/
def Statement.IsFresh : Statement → Prop
  | .placeholder _ => False
  | .compound c => c.IsFresh
  | .expression .. | .inert .. => True

instance : (s : Statement) → Decidable s.IsFresh
  | .placeholder _ => inferInstanceAs (Decidable False)
  | .compound c => inferInstanceAs (Decidable c.IsFresh)
  | .expression .. | .inert .. => inferInstanceAs (Decidable True)

/-- A tree from which nothing was removed, and in which only the module can be empty. -/
structure Tree.IsFresh (tree : Tree) : Prop where
  excised : tree.body.excised = []
  statements : ∀ s ∈ tree.body.all, s.IsFresh

instance (tree : Tree) : Decidable tree.IsFresh :=
  decidable_of_iff (tree.body.excised = [] ∧ ∀ s ∈ tree.body.all, s.IsFresh)
    ⟨fun ⟨h₁, h₂⟩ ↦ ⟨h₁, h₂⟩, fun ⟨h₁, h₂⟩ ↦ ⟨h₁, h₂⟩⟩

theorem Statement.IsFresh.isPlaceholder_eq_false {s : Statement} (h : s.IsFresh) :
    s.isPlaceholder = false := by
  cases s with
  | placeholder => exact h.elim
  | _ => rfl

/-! ### Trees in the order of the text -/

/-- The statements of the block start one after the other. -/
def Block.IsOrdered (b : Block) : Prop :=
  b.statements.Pairwise fun s u ↦ s.span.start ≤ u.span.start

instance (b : Block) : Decidable b.IsOrdered :=
  inferInstanceAs (Decidable (b.statements.Pairwise fun s u ↦ s.span.start ≤ u.span.start))

/-- The clauses of the construct start one after the other, and so do the statements of each. -/
structure Construct.IsOrdered (c : Construct) : Prop where
  clauses : c.clauses.Pairwise fun a b ↦ a.span.start ≤ b.span.start
  bodies : ∀ cl ∈ c.clauses, cl.body.IsOrdered

instance (c : Construct) : Decidable c.IsOrdered :=
  decidable_of_iff
    ((c.clauses.Pairwise fun a b ↦ a.span.start ≤ b.span.start) ∧
      ∀ cl ∈ c.clauses, cl.body.IsOrdered)
    ⟨fun ⟨h₁, h₂⟩ ↦ ⟨h₁, h₂⟩, fun ⟨h₁, h₂⟩ ↦ ⟨h₁, h₂⟩⟩

/-- A statement that, if it is compound, is an ordered construct. -/
def Statement.IsOrdered : Statement → Prop
  | .compound c => c.IsOrdered
  | .expression .. | .placeholder _ | .inert .. => True

instance : (s : Statement) → Decidable s.IsOrdered
  | .compound c => inferInstanceAs (Decidable c.IsOrdered)
  | .expression .. | .placeholder _ | .inert .. => inferInstanceAs (Decidable True)

/-- Every block and every construct of the tree is ordered. -/
structure Tree.IsOrdered (tree : Tree) : Prop where
  body : tree.body.IsOrdered
  statements : ∀ s ∈ tree.body.all, s.IsOrdered

instance (tree : Tree) : Decidable tree.IsOrdered :=
  decidable_of_iff (tree.body.IsOrdered ∧ ∀ s ∈ tree.body.all, s.IsOrdered)
    ⟨fun ⟨h₁, h₂⟩ ↦ ⟨h₁, h₂⟩, fun ⟨h₁, h₂⟩ ↦ ⟨h₁, h₂⟩⟩

/-! ### Grammatical trees -/

/-- Whether clauses of these roles, in this order, make a construct of the kind. -/
def ConstructKind.admits : ConstructKind → List Role → Bool
  | .conditional, .primary :: rest => [[], [.orElse]].contains (rest.dropWhile (· = .elif))
  | .forLoop, .primary :: rest | .whileLoop, .primary :: rest => [[], [.orElse]].contains rest
  | .attempt, .primary :: .handler :: rest =>
    [[], [.orElse], [.cleanup], [.orElse, .cleanup]].contains (rest.dropWhile (· = .handler))
  | .attempt, .primary :: rest => rest = [.cleanup]
  | .context, roles | .function _, roles | .classBody _, roles => roles = [.primary]
  | .selection, .case :: rest => rest.all (· = .case)
  | _, _ => false

theorem ConstructKind.admits_conditional {roles : List Role}
    (h : ConstructKind.conditional.admits roles = true) :
    ∃ rest, roles = .primary :: rest ∧
      [[], [Role.orElse]].contains (rest.dropWhile (· = .elif)) = true := by
  match roles, h with
  | .primary :: rest, h => exact ⟨rest, rfl, h⟩

theorem ConstructKind.admits_selection {roles : List Role}
    (h : ConstructKind.selection.admits roles = true) : ∀ r ∈ roles, r = .case := by
  match roles, h with
  | .case :: rest, h =>
    rw [admits, List.all_eq_true] at h
    exact List.forall_mem_cons.mpr ⟨rfl, fun r hr ↦ of_decide_eq_true (h r hr)⟩

/-- Whether the roles of the clauses fit the kind of the construct. -/
def Construct.isGrammatical (c : Construct) : Bool := c.kind.admits (c.clauses.map (·.role))

/-- Whether the statement, if it is compound, is a grammatical construct. -/
def Statement.isGrammatical : Statement → Bool
  | .compound c => c.isGrammatical
  | _ => true

/-- Every construct of the tree is grammatical. -/
def Tree.IsGrammatical (tree : Tree) : Prop := ∀ s ∈ tree.body.all, s.isGrammatical = true

instance (tree : Tree) : Decidable tree.IsGrammatical :=
  inferInstanceAs (Decidable (∀ s ∈ tree.body.all, s.isGrammatical = true))

/-! ### A tree from a text -/

/-- A text in which taking out the calls to `print` empties clauses of several roles and a whole
loop. -/
def specimen : Text :=
  "if a: print(1)\nelse: b\ntry: print(2)\nexcept E: c\nfinally:\n while d: print(3)\n"

/-- The tree of the specimen. -/
def specimenTree : Tree := ⟨specimen, Python.Lowering.block specimen (Python.parse specimen)⟩

/-- The specimen is valid, and its tree is fresh and grammatical. -/
theorem check_specimen : Python.check specimen = none ∧ specimenTree.IsFresh ∧
    specimenTree.IsGrammatical := by decide +kernel

theorem readTree_specimen : Python.readTree specimen = .ok specimenTree := by
  rw [Python.readTree, check_specimen.1, specimenTree]

end Declutter
