import Declutter.Tree.Prune
/-!
Walking a statement tree. Blocks, clauses and constructs only carry statements further down, so one
induction principle serves for all of them: what holds of a construct once it holds of every
statement directly inside it, holds of every statement.

`Block.all` lists the statements at every depth, each compound statement before what it holds.
Pruning is read here as a `map` over clauses and a `filterMap` over statements.
-/

set_option autoImplicit false
set_option relaxedAutoImplicit false

namespace Declutter

/-! ### Induction -/

/-- Induction over statements. For a compound statement the motive is known of every statement that
is directly in the block of one of its clauses. -/
@[elab_as_elim]
theorem Statement.induct {motive : Statement → Prop}
    (expression : ∀ span value, motive (.expression span value))
    (compound : ∀ c : Construct,
      (∀ cl ∈ c.clauses, ∀ s ∈ cl.body.statements, motive s) → motive (.compound c))
    (placeholder : ∀ span, motive (.placeholder span))
    (inert : ∀ span type, motive (.inert span type)) (s : Statement) : motive s :=
  @Statement.rec motive
    (fun c ↦ ∀ cl ∈ c.clauses, ∀ s ∈ cl.body.statements, motive s)
    (fun cl ↦ ∀ s ∈ cl.body.statements, motive s)
    (fun b ↦ ∀ s ∈ b.statements, motive s)
    (fun clauses ↦ ∀ cl ∈ clauses, ∀ s ∈ cl.body.statements, motive s)
    (fun statements ↦ ∀ s ∈ statements, motive s)
    expression compound placeholder inert
    (fun _ _ _ _ h ↦ h) (fun _ _ _ h ↦ h) (fun _ _ _ _ h ↦ h)
    (fun _ h ↦ nomatch h)
    (fun _ _ hhead htail ↦ List.forall_mem_cons.mpr ⟨hhead, htail⟩)
    (fun _ h ↦ nomatch h)
    (fun _ _ hhead htail ↦ List.forall_mem_cons.mpr ⟨hhead, htail⟩) s

/-! ### The statements at every depth -/

mutual

/-- The statement and, if it is compound, the statements inside it. -/
def Statement.all : Statement → List Statement
  | .compound c => .compound c :: c.inner
  | .expression span value => [.expression span value]
  | .placeholder span => [.placeholder span]
  | .inert span type => [.inert span type]

/-- The statements at every depth inside a construct. -/
def Construct.inner : Construct → List Statement
  | ⟨_, _, clauses, _⟩ => Clause.allInner clauses

def Clause.allInner : List Clause → List Statement
  | [] => []
  | ⟨_, _, body⟩ :: rest => body.all ++ Clause.allInner rest

/-- The statements of a block at every depth, in the order of the text. -/
def Block.all : Block → List Statement
  | ⟨_, statements, _, _⟩ => Statement.allOf statements

def Statement.allOf : List Statement → List Statement
  | [] => []
  | s :: rest => s.all ++ Statement.allOf rest

end

theorem Statement.allOf_eq (statements : List Statement) :
    Statement.allOf statements = statements.flatMap Statement.all := by
  induction statements with
  | nil => rfl
  | cons s rest ih => rw [Statement.allOf, ih, List.flatMap_cons]

theorem Block.all_eq (b : Block) : b.all = b.statements.flatMap Statement.all := by
  cases b
  rw [Block.all, Statement.allOf_eq]

theorem Clause.allInner_eq (clauses : List Clause) :
    Clause.allInner clauses = clauses.flatMap (·.body.all) := by
  induction clauses with
  | nil => rfl
  | cons c rest ih =>
    cases c
    rw [Clause.allInner, ih, List.flatMap_cons]

theorem Construct.inner_eq (c : Construct) : c.inner = c.clauses.flatMap (·.body.all) := by
  cases c
  rw [Construct.inner, Clause.allInner_eq]

@[simp] theorem Statement.all_compound (c : Construct) :
    (Statement.compound c).all = .compound c :: c.inner := by rw [Statement.all]

@[simp] theorem Statement.all_expression (span : Span) (value : Expression) :
    (Statement.expression span value).all = [.expression span value] := by rw [Statement.all]

@[simp] theorem Statement.all_placeholder (span : Span) :
    (Statement.placeholder span).all = [.placeholder span] := by rw [Statement.all]

@[simp] theorem Statement.all_inert (span : Span) (type : Text) :
    (Statement.inert span type).all = [.inert span type] := by rw [Statement.all]

theorem Statement.mem_all_self (s : Statement) : s ∈ s.all := by
  cases s <;> simp

theorem Block.forall_all {b : Block} {P : Statement → Prop} :
    (∀ t ∈ b.all, P t) ↔ ∀ s ∈ b.statements, ∀ t ∈ s.all, P t := by
  rw [Block.all_eq]
  exact List.forall_mem_flatMap

theorem Statement.forall_all_compound {c : Construct} {P : Statement → Prop} :
    (∀ t ∈ (Statement.compound c).all, P t) ↔
      P (.compound c) ∧ ∀ cl ∈ c.clauses, ∀ s ∈ cl.body.statements, ∀ t ∈ s.all, P t := by
  rw [Statement.all_compound, List.forall_mem_cons, Construct.inner_eq, List.forall_mem_flatMap]
  simp only [Block.forall_all]

/-- What is inside a statement of the list at every depth is in that list, too. -/
theorem Statement.all_subset {s u : Statement} (h : u ∈ s.all) : u.all ⊆ s.all := by
  induction s using Statement.induct with
  | expression | placeholder | inert =>
    simp only [all_expression, all_placeholder, all_inert, List.mem_singleton] at h
    rw [h]
    exact List.Subset.refl _
  | compound c ih =>
    rw [all_compound, List.mem_cons, Construct.inner_eq, List.mem_flatMap] at h
    obtain rfl | ⟨cl, hcl, hu⟩ := h
    · exact List.Subset.refl _
    · rw [Block.all_eq, List.mem_flatMap] at hu
      obtain ⟨s, hs, hu⟩ := hu
      intro v hv
      rw [all_compound, Construct.inner_eq]
      refine List.mem_cons_of_mem _ (List.mem_flatMap.mpr ⟨cl, hcl, ?_⟩)
      rw [Block.all_eq]
      exact List.mem_flatMap.mpr ⟨s, hs, ih cl hcl s hs hu hv⟩

theorem Block.all_subset {b : Block} {u : Statement} (h : u ∈ b.all) : u.all ⊆ b.all := by
  rw [all_eq, List.mem_flatMap] at h
  obtain ⟨s, hs, hu⟩ := h
  intro v hv
  rw [all_eq]
  exact List.mem_flatMap.mpr ⟨s, hs, Statement.all_subset hu hv⟩

/-! ### Pruning, one level at a time -/

variable (targets : TargetSet) (policy : Policy)

/-- The construct with its clauses pruned and its emptied clauses not settled yet. -/
def Construct.pruneInner (c : Construct) : Construct :=
  { c with clauses := c.clauses.map fun cl ↦ (cl.prune targets policy).1 }

theorem Statement.kept_pruneAll (statements : List Statement) :
    (Statement.pruneAll targets policy statements).kept =
      statements.filterMap fun s ↦ (s.prune targets policy).1 := by
  induction statements with
  | nil => rfl
  | cons s rest ih =>
    rw [Statement.pruneAll, List.filterMap_cons, ← ih]
    cases (s.prune targets policy).1 <;> rfl

theorem Statement.excised_pruneAll (statements : List Statement) :
    (pruneAll targets policy statements).excised =
      (statements.filter fun s ↦ (s.prune targets policy).1.isNone).map (·.span) := by
  induction statements with
  | nil => rfl
  | cons s rest ih =>
    rw [pruneAll, List.filter_cons]
    cases hprune : (s.prune targets policy).1 with
    | some kept => exact ih
    | none => exact congrArg (s.span :: ·) ih

/-- Every statement is either kept or leaves its span behind. -/
theorem Statement.pruneAll_eq_nil {statements : List Statement}
    (hkept : (Statement.pruneAll targets policy statements).kept = [])
    (hexcised : (Statement.pruneAll targets policy statements).excised = []) : statements = [] := by
  cases statements with
  | nil => rfl
  | cons s rest =>
    rw [Statement.pruneAll] at hkept hexcised
    cases h : (s.prune targets policy).1 <;> simp [h] at hkept hexcised

theorem Clause.fst_pruneAll (clauses : List Clause) :
    (Clause.pruneAll targets policy clauses).1 = clauses.map fun cl ↦
      (cl.prune targets policy).1 := by
  induction clauses with
  | nil => rfl
  | cons cl rest ih => rw [Clause.pruneAll, List.map_cons, ← ih]

@[simp] theorem Block.statements_prune (b : Block) :
    (b.prune targets policy).1.statements =
      b.statements.filterMap fun s ↦ (s.prune targets policy).1 := by
  cases b
  rw [Block.prune]
  exact Statement.kept_pruneAll targets policy _

@[simp] theorem Block.span_prune (b : Block) : (b.prune targets policy).1.span = b.span := by
  cases b
  rw [Block.prune]

/-- The statements that go from a block leave their spans behind. -/
theorem Block.excised_prune (b : Block) : (b.prune targets policy).1.excised =
    b.excised ++ (b.statements.filter fun s ↦ (s.prune targets policy).1.isNone).map (·.span) := by
  obtain ⟨span, statements, excised, emptied⟩ := b
  rw [prune, ← Statement.excised_pruneAll]

/-- Pruning marks a block as emptied exactly if it took the last of its statements. -/
theorem Block.emptied_prune (b : Block) :
    (b.prune targets policy).1.emptied = true ↔
      b.statements ≠ [] ∧ (b.prune targets policy).1.statements = [] := by
  obtain ⟨span, statements, excised, emptied⟩ := b
  simp only [Block.prune, Bool.and_eq_true, Bool.not_eq_true', List.isEmpty_eq_false_iff,
    List.isEmpty_iff]
  constructor
  · rintro ⟨hexcised, hkept⟩
    refine ⟨?_, hkept⟩
    rintro rfl
    exact hexcised rfl
  · rintro ⟨hne, hkept⟩
    exact ⟨fun h ↦ hne (Statement.pruneAll_eq_nil targets policy hkept h), hkept⟩

@[simp] theorem Clause.role_prune (cl : Clause) : (cl.prune targets policy).1.role = cl.role := by
  cases cl
  rw [Clause.prune]

@[simp] theorem Clause.span_prune (cl : Clause) : (cl.prune targets policy).1.span = cl.span := by
  cases cl
  rw [Clause.prune]

@[simp] theorem Clause.body_prune (cl : Clause) :
    (cl.prune targets policy).1.body = (cl.body.prune targets policy).1 := by
  cases cl
  rw [Clause.prune]

theorem Construct.fst_prune (c : Construct) :
    (c.prune targets policy).1 = ((c.pruneInner targets policy).settle policy).1 := by
  cases c
  rw [Construct.prune, Clause.fst_pruneAll]
  rfl

@[simp] theorem Statement.fst_prune_compound (c : Construct) :
    ((Statement.compound c).prune targets policy).1 =
      ((c.pruneInner targets policy).settle policy).1.map .compound := by
  rw [Statement.prune, Construct.fst_prune]

/-- After pruning, an emptied clause of a construct holds no statement. -/
theorem Construct.statements_eq_nil_of_emptied {c : Construct} {cl : Clause}
    (hcl : cl ∈ (c.pruneInner targets policy).clauses) (h : cl.body.emptied = true) :
    cl.body.statements = [] := by
  obtain ⟨original, -, rfl⟩ := List.mem_map.mp hcl
  rw [Clause.body_prune] at h ⊢
  exact ((Block.emptied_prune targets policy _).mp h).2

theorem Tree.prune_of_ne_nil {targets : TargetSet} {policy : Policy} {tree : Tree}
    (h : targets.paths ≠ []) :
    tree.prune targets policy =
      ({ tree with body := (tree.body.prune targets policy).1 },
        (tree.body.prune targets policy).2) := by
  rw [prune, if_neg (by simpa using h)]

/-- Without targets a tree comes back as it is. -/
theorem Tree.prune_of_eq_nil {targets : TargetSet} {policy : Policy} {tree : Tree}
    (h : targets.paths = []) :
    tree.prune targets policy = (tree, 0) := by
  rw [prune, if_pos (by simpa using h)]

end Declutter
