import Declutter.Proofs.Tree.Idle
import Declutter.Proofs.Tree.Places
import Mathlib.Data.List.Forall2
/-!
A pruned tree accounts for every span of the tree it came from. In each block that is left, the
statements that are there and those that were excised make up, in the order of the text, the
statements that the block had; in each construct that is left, so do the clauses that are there and
those that were dropped. A placeholder is alone in its block and stands where the first statement of
the block stood.

The blocks and constructs that are left are compared with those they came from: clause by clause
inside a construct (`Construct.AccountedBy`), and construct by construct at all depths, where those
that go are exactly those that do not survive (`Statement.accountedBy_prune`). What is in order
before is in order afterwards because pruning only takes statements away, and clauses, and sorts
what it writes down of them.
-/

set_option autoImplicit false
set_option relaxedAutoImplicit false

namespace Declutter

open scoped List

/-! ### Accounts -/

/-- The spans that are there and those that are gone make up `whole`. Both lists are in the order of
the text, and where no two spans of `whole` start at one place, merging them by their starts gives
`whole` itself. -/
structure Span.Divides (there gone whole : List Span) : Prop where
  there_ordered : there.Pairwise fun a b ↦ a.start ≤ b.start
  gone_ordered : gone.Pairwise fun a b ↦ a.start ≤ b.start
  perm : there ++ gone ~ whole
  merged : whole.Pairwise (fun a b ↦ a.start < b.start) → sortByStart (there ++ gone) = whole

/-- The statements of a block are accounted for by what is left of it: each is there or excised, and
a placeholder is alone and in the place of the first. -/
structure Block.AccountedBy (b left : Block) : Prop where
  span : left.span = b.span
  statements : Span.Divides (left.statements.map (·.span)) left.excised (b.statements.map (·.span))
  placeholder : ∀ span, .placeholder span ∈ left.statements →
    left.statements = [.placeholder span] ∧ (b.statements.map (·.span)).head? = some span

/-- A clause is accounted for by what is left of it. -/
structure Clause.AccountedBy (cl left : Clause) : Prop where
  role : left.role = cl.role
  span : left.span = cl.span
  body : cl.body.AccountedBy left.body

/-- The clauses of a construct are accounted for by what is left of it: each is there or dropped,
and those that are there are accounted for, one by one. -/
structure Construct.AccountedBy (c left : Construct) : Prop where
  kind : left.kind = c.kind
  span : left.span = c.span
  clauses : Span.Divides (left.clauses.map (·.span)) left.dropped (c.clauses.map (·.span))
  stayed : ∃ stayed, stayed <+ c.clauses ∧ List.Forall₂ Clause.AccountedBy stayed left.clauses

/-! ### Spans in the order of the text -/

theorem Block.IsOrdered.spans {b : Block} (h : b.IsOrdered) :
    (b.statements.map (·.span)).Pairwise fun a b ↦ a.start ≤ b.start := List.pairwise_map.mpr h

theorem Construct.IsOrdered.spans {c : Construct} (h : c.IsOrdered) :
    (c.clauses.map (·.span)).Pairwise fun a b ↦ a.start ≤ b.start := List.pairwise_map.mpr h.clauses

namespace Span.Divides

variable {there gone whole : List Span}

/-- Merging need not be checked: sorting is unique. -/
theorem of_perm (hthere : there.Pairwise fun a b ↦ a.start ≤ b.start)
    (hgone : gone.Pairwise fun a b ↦ a.start ≤ b.start) (hperm : there ++ gone ~ whole) :
    Divides there gone whole := ⟨hthere, hgone, hperm, fun hwhole ↦ sortByStart_eq hperm hwhole⟩

/-- Nothing is gone. -/
theorem refl (hwhole : whole.Pairwise fun a b ↦ a.start ≤ b.start) : Divides whole [] whole :=
  of_perm hwhole .nil (by rw [List.append_nil])

end Span.Divides

/-! ### Blocks -/

section Pruning

variable {targets : TargetSet} {policy : Policy}

/-- The spans of the statements that are left are among those that were there, in their order. -/
theorem Block.spans_prune_sublist (b : Block) :
    (b.prune targets policy).1.statements.map (·.span) <+ b.statements.map (·.span) := by
  rw [statements_prune]
  induction b.statements with
  | nil => exact .slnil
  | cons s rest ih =>
    rw [List.filterMap_cons, List.map_cons]
    cases hprune : (s.prune targets policy).1 with
    | none => exact ih.cons _
    | some kept =>
      rw [List.map_cons, Statement.span_of_mem_prune hprune]
      exact ih.cons_cons _

/-- Pruning a statement makes no placeholder of it. -/
theorem Statement.isPlaceholder_prune {s kept : Statement} (h : kept ∈ (s.prune targets policy).1) :
    kept.isPlaceholder = s.isPlaceholder := by
  obtain rfl | ⟨c, d, rfl, rfl, -⟩ := cases_of_mem_prune h <;> rfl

/-- A block is accounted for by what pruning leaves of it, before it may be filled. -/
theorem Block.accountedBy_prune {b : Block} (hexcised : b.excised = [])
    (hfresh : ∀ s ∈ b.statements, s.IsFresh) (hordered : b.IsOrdered) :
    b.AccountedBy (b.prune targets policy).1 where
  span := b.span_prune targets policy
  statements := by
    refine .of_perm (hordered.spans.sublist b.spans_prune_sublist) ?_ ?_
    · rw [excised_prune, hexcised, List.nil_append]
      exact hordered.spans.sublist (List.filter_sublist.map _)
    · have hplaces : (b.prune targets policy).1.places ~ b.places := b.places_prune
      rwa [places, places, hexcised, List.append_nil] at hplaces
  placeholder := by
    intro span hspan
    rw [statements_prune] at hspan
    obtain ⟨s, hs, hprune⟩ := List.mem_filterMap.mp hspan
    have hnot : s.isPlaceholder = false := (hfresh s hs).isPlaceholder_eq_false
    exact Bool.noConfusion ((Statement.isPlaceholder_prune hprune).trans hnot)

/-- A block that lost all its statements has all their spans. -/
theorem Block.excised_prune_of_eq_nil {b : Block} (hexcised : b.excised = [])
    (hnil : (b.prune targets policy).1.statements = []) :
    (b.prune targets policy).1.excised = b.statements.map (·.span) := by
  rw [statements_prune, List.filterMap_eq_nil_iff] at hnil
  rw [excised_prune, hexcised, List.nil_append, List.filter_eq_self.mpr]
  intro s hs
  rw [hnil s hs]
  rfl

/-- Filling an emptied block puts the placeholder in the place of its first statement. -/
theorem Clause.AccountedBy.fill {cl left : Clause} (hleft : cl.AccountedBy left)
    (hordered : cl.body.IsOrdered)
    (hexcised : left.body.excised = cl.body.statements.map (·.span)) :
    cl.AccountedBy left.fill.1 := by
  rw [Clause.fill]
  split
  · exact hleft
  · next anchor rest hcons =>
    have hwhole := hexcised.symm.trans hcons
    have hspans := hordered.spans
    refine ⟨hleft.role, hleft.span, hleft.body.span, .of_perm (List.pairwise_singleton _ _) ?_ ?_,
      ?_⟩
    · rw [hwhole] at hspans
      exact hspans.tail
    · rw [hwhole]
      rfl
    · intro span hspan
      obtain rfl := Statement.placeholder.inj (List.mem_singleton.mp hspan)
      exact ⟨rfl, by rw [hwhole]; rfl⟩

/-! ### Constructs -/

/-- Settling leaves some of the clauses, in their order: each as it was, or filled. -/
theorem Settles.exists_sublist {handled : Bool} {before after : List Clause}
    (h : Settles policy handled before after) :
    ∃ stayed, stayed <+ before ∧
      List.Forall₂ (fun c d ↦ d = c ∨ c.body.emptied = true ∧ d = c.fill.1) stayed after := by
  induction h with
  | nil => exact ⟨[], .slnil, .nil⟩
  | keep _ _ ih =>
    obtain ⟨stayed, hsublist, hstayed⟩ := ih
    exact ⟨_, hsublist.cons_cons _, .cons (.inl rfl) hstayed⟩
  | fill emptied _ _ ih =>
    obtain ⟨stayed, hsublist, hstayed⟩ := ih
    exact ⟨_, hsublist.cons_cons _, .cons (.inr ⟨emptied, rfl⟩) hstayed⟩
  | drop _ _ _ _ ih =>
    obtain ⟨stayed, hsublist, hstayed⟩ := ih
    exact ⟨_, hsublist.cons _, hstayed⟩

/-- The clauses that are dropped are written down in the order of the text. -/
theorem Construct.pairwise_dropped_settle {c d : Construct} (hdropped : c.dropped = [])
    (h : (c.settle policy).1 = some d) : d.dropped.Pairwise fun a b ↦ a.start ≤ b.start := by
  unfold settle at h
  split_ifs at h
  · obtain rfl := Option.some.inj h
    rw [hdropped]
    exact .nil
  cases policy with
  | keep =>
    obtain rfl := Option.some.inj h
    rw [hdropped]
    exact .nil
  | fill =>
    obtain rfl := Option.some.inj h
    rw [fillEmptied, hdropped]
    exact .nil
  | remove =>
    simp only [discardEmptied] at h
    split_ifs at h
    obtain rfl := Option.some.inj h
    exact Span.pairwise_start_sortByStart _

/-- A construct is accounted for by what pruning leaves of it. -/
theorem Construct.accountedBy_settle {c d : Construct} (hc : c.IsFresh)
    (hfresh : ∀ cl ∈ c.clauses, ∀ s ∈ cl.body.statements, s.IsFresh) (hordered : c.IsOrdered)
    (h : ((c.pruneInner targets policy).settle policy).1 = some d) : c.AccountedBy d := by
  obtain ⟨hkind, hspan, hsettles⟩ := settles_of_settle h
  have hplaces := places_settle h
  rw [places_pruneInner, places, places, hc.dropped, List.append_nil] at hplaces
  -- the clauses before settling are pruned ones, so those that stay come from clauses of the
  -- construct
  obtain ⟨pruned, hsublist, hafter⟩ := hsettles.exists_sublist
  obtain ⟨stayed, hstayed, rfl⟩ := List.sublist_map_iff.mp hsublist
  rw [List.forall₂_map_left_iff] at hafter
  have hpruned : ∀ cl ∈ c.clauses, cl.AccountedBy (cl.prune targets policy).1 := fun cl hcl ↦
    ⟨cl.role_prune targets policy, cl.span_prune targets policy, by
      rw [Clause.body_prune]
      exact Block.accountedBy_prune (hc.excised cl hcl) (hfresh cl hcl) (hordered.bodies cl hcl)⟩
  have haccounts : List.Forall₂ Clause.AccountedBy stayed d.clauses := by
    refine ((List.forall₂_and_left _ _).mpr ⟨fun cl hcl ↦ hstayed.subset hcl, hafter⟩).imp
      fun cl left hboth ↦ ?_
    obtain ⟨hcl, rfl | ⟨hemptied, rfl⟩⟩ := hboth
    · exact hpruned cl hcl
    · refine (hpruned cl hcl).fill (hordered.bodies cl hcl) ?_
      have hnil := statements_eq_nil_of_emptied targets policy (List.mem_map_of_mem hcl) hemptied
      rw [Clause.body_prune] at hnil ⊢
      exact Block.excised_prune_of_eq_nil (hc.excised cl hcl) hnil
  have hspans : stayed.map (·.span) = d.clauses.map (·.span) := by
    rw [← List.forall₂_eq_eq_eq, List.forall₂_map_left_iff, List.forall₂_map_right_iff]
    exact haccounts.imp fun _ _ haccount ↦ haccount.span.symm
  refine ⟨hkind, hspan, .of_perm ?_ ?_ hplaces, stayed, hstayed, haccounts⟩
  · rw [← hspans]
    exact hordered.spans.sublist (hstayed.map _)
  · exact pairwise_dropped_settle (c := c.pruneInner targets policy) hc.dropped h

/-! ### All depths -/

/-- Lists that are put together from parts that go together. -/
theorem forall₂_flatMap {α β γ : Type} {R : β → γ → Prop} {l : List α} {f : α → List β}
    {g : α → List γ} (h : ∀ x ∈ l, List.Forall₂ R (f x) (g x)) :
    List.Forall₂ R (l.flatMap f) (l.flatMap g) := by
  induction l with
  | nil => exact .nil
  | cons x rest ih =>
    rw [List.forall_mem_cons] at h
    exact List.rel_append h.1 (ih h.2)

/-- The constructs inside a list of statements that are still there after pruning. -/
def Statement.survivingOf (targets : TargetSet) (policy : Policy) (statements : List Statement) :
    List Construct :=
  (constructsOf statements).filter fun c ↦ policy != .remove || c.lasts targets

theorem Block.constructs_eq (b : Block) :
    b.constructs = b.statements.flatMap fun s ↦ Statement.constructsOf s.all := by
  rw [constructs, all_eq, List.filterMap_flatMap]
  rfl

theorem Construct.constructsOf_inner (c : Construct) :
    Statement.constructsOf c.inner =
      c.clauses.flatMap fun cl ↦ cl.body.statements.flatMap fun s ↦
        Statement.constructsOf s.all := by
  rw [Statement.constructsOf, inner_eq, List.filterMap_flatMap]
  exact List.flatMap_congr fun cl _ ↦ cl.body.constructs_eq

theorem Statement.survivingOf_flatMap {α : Type} (l : List α) (f : α → List Statement) :
    survivingOf targets policy (l.flatMap f) = l.flatMap fun x ↦
      survivingOf targets policy (f x) := by
  rw [survivingOf, constructsOf, List.filterMap_flatMap, List.filter_flatMap]
  rfl

/-- The constructs that survive in a block are accounted for by those that are left, if that holds
of each of its statements. -/
theorem Block.forall₂_accountedBy_prune_of {b : Block}
    (h : ∀ s ∈ b.statements,
      List.Forall₂ Construct.AccountedBy (Statement.survivingOf targets policy s.all)
        ((s.prune targets policy).1.toList.flatMap fun left ↦ Statement.constructsOf left.all)) :
    List.Forall₂ Construct.AccountedBy (Statement.survivingOf targets policy b.all)
      ((b.prune targets policy).1.statements.flatMap fun left ↦
        Statement.constructsOf left.all) := by
  rw [all_eq, Statement.survivingOf_flatMap, statements_prune, List.filterMap_eq_flatMap_toList,
    List.flatMap_assoc]
  exact forall₂_flatMap h

/-- The constructs that survive in a statement are accounted for by those that are left, one by one
and in their order. -/
theorem Statement.accountedBy_prune (s : Statement) (hfresh : ∀ u ∈ s.all, u.IsFresh)
    (hordered : ∀ u ∈ s.all, u.IsOrdered) :
    List.Forall₂ Construct.AccountedBy (survivingOf targets policy s.all)
      ((s.prune targets policy).1.toList.flatMap fun left ↦ constructsOf left.all) := by
  induction s using Statement.induct with
  | expression span value =>
    rw [prune]
    split_ifs
    · exact .nil
    · rw [Option.toList_some, List.flatMap_singleton]
      exact .nil
  | placeholder span => exact (hfresh _ (mem_all_self _)).elim
  | inert span type => exact .nil
  | compound c ih =>
    have hnone : ((Statement.compound c).prune targets policy).1 = none ↔
        (Statement.compound c).survives targets policy = false := prune_eq_none_iff _ hfresh
    obtain ⟨hc, hfresh⟩ := forall_all_compound.mp hfresh
    obtain ⟨hordered, hinner⟩ := forall_all_compound.mp hordered
    have hclauses : List.Forall₂ Construct.AccountedBy (survivingOf targets policy c.inner)
        ((c.pruneInner targets policy).clauses.flatMap fun cl ↦
          cl.body.statements.flatMap fun left ↦ constructsOf left.all) := by
      rw [Construct.inner_eq, survivingOf_flatMap, Construct.pruneInner, List.flatMap_map]
      refine forall₂_flatMap fun cl hcl ↦ ?_
      rw [Clause.body_prune]
      exact Block.forall₂_accountedBy_prune_of fun s hs ↦
        ih cl hcl s hs (hfresh cl hcl s hs) (hinner cl hcl s hs)
    rw [fst_prune_compound] at hnone ⊢
    rw [survivingOf, all_compound, constructsOf_compound, List.filter_cons]
    cases hsettle : ((c.pruneInner targets policy).settle policy).1 with
    | none =>
      -- nothing is left inside a construct that goes, so nothing inside it survives
      have hempty := (Construct.settle_eq_none_iff.mp hsettle).2.2.2
      rw [hsettle] at hnone
      rw [List.flatMap_eq_nil_iff.mpr fun cl hcl ↦ by rw [hempty cl hcl, List.flatMap_nil]]
        at hclauses
      rw [if_neg (by simpa [survives] using hnone.mp rfl)]
      exact hclauses
    | some d =>
      obtain ⟨-, -, hsettles⟩ := Construct.settles_of_settle hsettle
      rw [hsettle] at hnone
      have hsurvives : (policy != .remove || c.lasts targets) = true :=
        Bool.of_not_eq_false fun hgoes ↦ absurd (hnone.mpr hgoes) (Option.some_ne_none _)
      rw [if_pos hsurvives, Option.map_some, Option.toList_some, List.flatMap_singleton,
        all_compound, constructsOf_compound]
      refine .cons (Construct.accountedBy_settle hc ?_ hordered hsettle) ?_
      · exact fun cl hcl s hs ↦ hfresh cl hcl s hs s s.mem_all_self
      · rw [← hsettles.flatMap_eq (fun cl ↦ Construct.statements_eq_nil_of_emptied targets policy)
          fun span ↦ by rw [all_placeholder]; rfl] at hclauses
        rwa [d.constructsOf_inner]

/-- Without a call to a target in it a statement survives. -/
theorem Statement.survives_of_not_isHit {s : Statement} (hfresh : ∀ u ∈ s.all, u.IsFresh)
    (hnone : ∀ u ∈ s.all, targets.isHit u = false) : s.survives targets policy = true := by
  refine Bool.of_not_eq_false fun hgoes ↦ ?_
  have hprune := (s.prune_eq_none_iff hfresh).mpr hgoes
  rw [s.prune_of_not_isHit hnone] at hprune
  exact absurd hprune (Option.some_ne_none _)

end Pruning

/-! ### Trees -/

/-- A block from which nothing was taken accounts for itself. -/
theorem Block.AccountedBy.refl {b : Block} (hexcised : b.excised = [])
    (hfresh : ∀ s ∈ b.statements, s.IsFresh) (hordered : b.IsOrdered) : b.AccountedBy b where
  span := rfl
  statements := hexcised ▸ .refl hordered.spans
  placeholder := fun _ hspan ↦ (hfresh _ hspan).elim

/-- A construct from which nothing was taken accounts for itself. -/
theorem Construct.AccountedBy.refl {c : Construct} (hc : c.IsFresh)
    (hfresh : ∀ cl ∈ c.clauses, ∀ s ∈ cl.body.statements, s.IsFresh) (hordered : c.IsOrdered) :
    c.AccountedBy c where
  kind := rfl
  span := rfl
  clauses := hc.dropped ▸ .refl hordered.spans
  stayed := ⟨c.clauses, List.Sublist.refl _, List.forall₂_same.mpr fun cl hcl ↦
    ⟨rfl, rfl, .refl (hc.excised cl hcl) (hfresh cl hcl) (hordered.bodies cl hcl)⟩⟩

/-- Every construct of a tree from which nothing was taken accounts for itself. -/
theorem Tree.accountedBy_self {tree : Tree} (hfresh : tree.IsFresh) (hordered : tree.IsOrdered)
    {c : Construct} (hc : c ∈ tree.body.constructs) : c.AccountedBy c := by
  have hmem := Statement.mem_constructsOf_iff.mp hc
  obtain ⟨-, hinner⟩ :=
    Statement.forall_all_compound.mp fun u hu ↦ hfresh.statements u (Block.all_subset hmem hu)
  exact .refl (hfresh.statements _ hmem) (fun cl hcl s hs ↦ hinner cl hcl s hs s s.mem_all_self)
    (hordered.statements _ hmem)

/-- A pruned tree accounts for every span of the tree. The block of the module is accounted for by
what is left of it; and the constructs that survive, at all depths and in the order of the text, are
accounted for one by one by those of the pruned tree, with the blocks of their clauses. -/
theorem Tree.prune_accounts (targets : TargetSet) (policy : Policy) (tree : Tree)
    (hfresh : tree.IsFresh) (hordered : tree.IsOrdered) :
    tree.body.AccountedBy (tree.prune targets policy).1.body ∧
    List.Forall₂ Construct.AccountedBy
      (tree.body.constructs.filter fun c ↦ policy != .remove || c.lasts targets)
      (tree.prune targets policy).1.body.constructs := by
  have hstatements : ∀ s ∈ tree.body.statements, s.IsFresh := fun s hs ↦
    Block.forall_all.mp hfresh.statements s hs s s.mem_all_self
  by_cases htargets : targets.paths = []
  · rw [prune_of_eq_nil htargets]
    refine ⟨.refl hfresh.excised hstatements hordered.body, ?_⟩
    rw [List.filter_eq_self.mpr, List.forall₂_same]
    · exact fun c ↦ accountedBy_self hfresh hordered
    · intro c hc
      have hmem := Statement.mem_constructsOf_iff.mp hc
      exact Statement.survives_of_not_isHit (s := .compound c)
        (fun u hu ↦ hfresh.statements u (Block.all_subset hmem hu)) fun u _ ↦
          TargetSet.isHit_eq_false htargets u
  · rw [prune_of_ne_nil htargets]
    refine ⟨Block.accountedBy_prune hfresh.excised hstatements hordered.body, ?_⟩
    have hconstructs := @Block.forall₂_accountedBy_prune_of targets policy tree.body fun s hs ↦
      s.accountedBy_prune (Block.forall_all.mp hfresh.statements s hs)
        (Block.forall_all.mp hordered.statements s hs)
    rwa [← Block.constructs_eq] at hconstructs

/-- In the specimen the last clause of the `try` is dropped, with the loop in it. -/
theorem Tree.prune_accounts_specimen :
    specimenTree.IsFresh ∧ specimenTree.IsOrdered ∧
    specimenTree.body.AccountedBy (specimenTree.prune ⟨["print"]⟩ .remove).1.body ∧
    List.Forall₂ Construct.AccountedBy
      (specimenTree.body.constructs.filter fun c ↦ c.lasts ⟨["print"]⟩)
        (specimenTree.prune ⟨["print"]⟩ .remove).1.body.constructs ∧
    (specimenTree.prune ⟨["print"]⟩ .remove).1.body.constructs.map
      (fun c ↦ (c.clauses.map (·.span), c.dropped)) =
        [([⟨0, 14⟩, ⟨15, 22⟩], []), ([⟨23, 36⟩, ⟨37, 48⟩], [⟨49, 76⟩])] := by
  have hordered : specimenTree.IsOrdered := by decide +kernel
  have haccounts := Tree.prune_accounts ⟨["print"]⟩ .remove specimenTree check_specimen.2.1 hordered
  exact ⟨check_specimen.2.1, hordered, haccounts.1, haccounts.2, by decide +kernel⟩

end Declutter
