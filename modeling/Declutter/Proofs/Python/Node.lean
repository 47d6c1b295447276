import Declutter.Python.Lowering
/-!
Walking a concrete syntax tree. `Node.all` lists a node with the nodes at every depth inside it,
`Node.inner` only the latter; what holds of a node once it holds of all nodes inside it, holds of
every node (`Node.induct`). The check of a tree for syntax errors is read off these lists: it finds
nothing exactly if nothing is wrong with any single node (`Node.problem?_eq_none_iff`).
-/

set_option autoImplicit false
set_option relaxedAutoImplicit false

namespace Declutter.Python.Node

/-! ### The nodes at every depth -/

mutual

/-- The node and the nodes inside it at every depth, in the order of the text. -/
def all : Node → List Node
  | ⟨kind, label, span, children⟩ => ⟨kind, label, span, children⟩ :: allOf children

def allOf : List Node → List Node
  | [] => []
  | n :: rest => n.all ++ allOf rest

end

/-- The nodes inside the node at every depth. -/
def inner (n : Node) : List Node := n.children.flatMap all

theorem allOf_eq (nodes : List Node) : allOf nodes = nodes.flatMap all := by
  induction nodes with
  | nil => rfl
  | cons n rest ih => rw [allOf, ih, List.flatMap_cons]

theorem all_eq (n : Node) : n.all = n :: n.inner := by
  cases n
  rw [all, allOf_eq, inner]

theorem mem_all_self (n : Node) : n ∈ n.all := by
  rw [all_eq]
  exact List.mem_cons_self

theorem inner_subset (n : Node) : n.inner ⊆ n.all := by
  rw [all_eq]
  exact List.subset_cons_self _ _

theorem mem_inner_iff {n m : Node} : m ∈ n.inner ↔ ∃ c ∈ n.children, m ∈ c.all := List.mem_flatMap

/-- Induction over the nodes of a tree. The motive is known of every child. -/
@[elab_as_elim]
theorem childInduct {motive : Node → Prop}
    (node : ∀ n : Node, (∀ c ∈ n.children, motive c) → motive n) (n : Node) :
    motive n :=
  @Node.rec motive (fun children ↦ ∀ c ∈ children, motive c)
    (fun _ _ _ children h ↦ node ⟨_, _, _, children⟩ h)
    (fun _ h ↦ nomatch h)
    (fun _ _ hhead htail ↦ List.forall_mem_cons.mpr ⟨hhead, htail⟩) n

/-- Induction over the nodes of a tree. The motive is known of every node inside. -/
@[elab_as_elim]
theorem induct {motive : Node → Prop} (node : ∀ n : Node, (∀ m ∈ n.inner, motive m) → motive n)
    (n : Node) :
    motive n := by
  have hall : ∀ m ∈ n.all, motive m := by
    induction n using childInduct with
    | node n ih =>
      have hinner : ∀ m ∈ n.inner, motive m := fun m hm ↦ by
        obtain ⟨c, hc, hmc⟩ := mem_inner_iff.mp hm
        exact ih c hc m hmc
      rw [all_eq]
      exact List.forall_mem_cons.mpr ⟨node n hinner, hinner⟩
  exact hall n n.mem_all_self

/-- A child of a node in the tree is inside the tree. -/
theorem mem_inner {n m c : Node} (hm : m ∈ n.all) (hc : c ∈ m.children) : c ∈ n.inner := by
  induction n using childInduct with
  | node n ih =>
    rw [all_eq, List.mem_cons] at hm
    obtain rfl | hm := hm
    · exact mem_inner_iff.mpr ⟨c, hc, c.mem_all_self⟩
    · obtain ⟨d, hd, hmd⟩ := mem_inner_iff.mp hm
      exact mem_inner_iff.mpr ⟨d, hd, d.inner_subset (ih d hd hmd)⟩

/-- What is inside a node of the tree is in the tree. -/
theorem all_subset {n m : Node} (hm : m ∈ n.all) : m.all ⊆ n.all := by
  induction m using childInduct with
  | node m ih =>
    rw [all_eq]
    refine List.cons_subset.mpr ⟨hm, fun u hu ↦ ?_⟩
    obtain ⟨c, hc, huc⟩ := mem_inner_iff.mp hu
    exact ih c hc (n.inner_subset (mem_inner hm hc)) huc

theorem mem_all_of_mem_cons {n m : Node} (hm : m ∈ n :: n.children) : m ∈ n.all := by
  obtain rfl | hm := List.mem_cons.mp hm
  · exact m.mem_all_self
  · exact n.inner_subset (mem_inner n.mem_all_self hm)

/-! ### The check for syntax errors -/

theorem firstProblem?_eq_none_iff (nodes : List Node) :
    firstProblem? nodes = none ↔ ∀ n ∈ nodes, n.problem? = none := by
  induction nodes with
  | nil => exact iff_of_true rfl fun _ h ↦ nomatch h
  | cons n rest ih =>
    rw [firstProblem?, List.forall_mem_cons, ← ih]
    cases hfirst : n.problem? with
    | none => exact ⟨fun h ↦ ⟨rfl, h⟩, And.right⟩
    | some found => exact iff_of_false (fun h ↦ nomatch h) fun h ↦ nomatch h.1

theorem problem?_eq_none_iff_children (n : Node) :
    n.problem? = none ↔ n.ownProblem? = none ∧ ∀ c ∈ n.children, c.problem? = none := by
  obtain ⟨kind, label, span, children⟩ := n
  rw [problem?, ← firstProblem?_eq_none_iff]
  cases hown : ownProblem? ⟨kind, label, span, children⟩ with
  | none => exact ⟨fun h ↦ ⟨rfl, h⟩, And.right⟩
  | some problem => exact iff_of_false (fun h ↦ nomatch h) fun h ↦ nomatch h.1

/-- The check finds nothing exactly if nothing is wrong with any node. -/
theorem problem?_eq_none_iff (n : Node) :
    n.problem? = none ↔ ∀ m ∈ n.all, m.ownProblem? = none := by
  induction n using childInduct with
  | node n ih =>
    rw [problem?_eq_none_iff_children, all_eq, List.forall_mem_cons, inner, List.forall_mem_flatMap]
    exact and_congr_right fun _ ↦ forall₂_congr ih

/-- A block with nothing wrong has a child that is code. -/
theorem code_ne_nil {n : Node} (hkind : n.kind = .block) (h : n.ownProblem? = none) :
    n.code ≠ [] := by
  intro hnil
  rw [ownProblem?, hkind] at h
  dsimp only at h
  rw [hnil, List.isEmpty_nil, if_pos rfl] at h
  exact absurd h (Option.some_ne_none _)

end Declutter.Python.Node
