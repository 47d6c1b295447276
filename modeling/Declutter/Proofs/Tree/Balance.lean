import Declutter.Proofs.Tree.Survival
import Mathlib.Algebra.BigOperators.Group.List.Basic
import Mathlib.Algebra.Ring.Nat
/-!
The tally of a pruning is exact. A tally balances two lists of statements if it holds what the
second list has lost and gained against the first: the calls to the targets and the constructs that
went, the placeholders that were put in and the clauses that were dropped (`Tally.Balances`).
Tallies that balance add up, along a list (`Tally.Balances.flatMap`) and over two steps
(`Tally.Balances.trans`), so pruning a statement balances because settling a construct does
(`Construct.balances_settle`). A construct that goes takes nothing along that was counted before,
since nothing is left inside it.

The blocks that stay empty are not counted against what was there before: under `keep` the tally
holds the blocks that are marked as emptied in the result (`Statement.emptyBlocksKept_prune`).
-/

set_option autoImplicit false
set_option relaxedAutoImplicit false

namespace Declutter

/-! ### Balance -/

/-- The constructs among the statements of a list. -/
def Statement.constructsOf (statements : List Statement) : List Construct :=
  statements.filterMap Statement.construct?

theorem Statement.mem_constructsOf_iff {statements : List Statement} {c : Construct} :
    c ∈ constructsOf statements ↔ .compound c ∈ statements := by
  rw [constructsOf, List.mem_filterMap]
  constructor
  · rintro ⟨s, hs, hconstruct⟩
    cases s with
    | compound d =>
      obtain rfl := Option.some.inj hconstruct
      exact hs
    | _ => cases hconstruct
  · exact fun h ↦ ⟨_, h, rfl⟩

/-- The number of clauses dropped from the constructs of a list. -/
def Construct.droppedCount (constructs : List Construct) : Nat :=
  (constructs.map (·.dropped.length)).sum

/-- The number of clauses in the constructs of a list whose blocks are marked as emptied. -/
def Construct.markedCount (constructs : List Construct) : Nat :=
  (constructs.map Construct.emptiedCount).sum

@[simp] theorem Statement.constructsOf_append (l₁ l₂ : List Statement) :
    constructsOf (l₁ ++ l₂) = constructsOf l₁ ++ constructsOf l₂ := List.filterMap_append

@[simp] theorem Statement.constructsOf_compound (c : Construct) (rest : List Statement) :
    constructsOf (.compound c :: rest) = c :: constructsOf rest := rfl

@[simp] theorem Construct.droppedCount_append (l₁ l₂ : List Construct) :
    droppedCount (l₁ ++ l₂) = droppedCount l₁ + droppedCount l₂ := by
  rw [droppedCount, List.map_append, List.sum_append]
  rfl

@[simp] theorem Construct.droppedCount_cons (c : Construct) (rest : List Construct) :
    droppedCount (c :: rest) = c.dropped.length + droppedCount rest := List.sum_cons

@[simp] theorem Construct.markedCount_append (l₁ l₂ : List Construct) :
    markedCount (l₁ ++ l₂) = markedCount l₁ + markedCount l₂ := by
  rw [markedCount, List.map_append, List.sum_append]
  rfl

@[simp] theorem Construct.markedCount_cons (c : Construct) (rest : List Construct) :
    markedCount (c :: rest) = c.emptiedCount + markedCount rest := List.sum_cons

namespace Tally

@[simp] theorem callsRemoved_add (a b : Tally) :
    (a + b).callsRemoved = a.callsRemoved + b.callsRemoved := rfl

@[simp] theorem placeholdersInserted_add (a b : Tally) :
    (a + b).placeholdersInserted = a.placeholdersInserted + b.placeholdersInserted := rfl

@[simp] theorem constructsRemoved_add (a b : Tally) :
    (a + b).constructsRemoved = a.constructsRemoved + b.constructsRemoved := rfl

@[simp] theorem clausesRemoved_add (a b : Tally) :
    (a + b).clausesRemoved = a.clausesRemoved + b.clausesRemoved := rfl

@[simp] theorem emptyBlocksKept_add (a b : Tally) :
    (a + b).emptyBlocksKept = a.emptyBlocksKept + b.emptyBlocksKept := rfl

@[ext] theorem ext {a b : Tally} (h₁ : a.callsRemoved = b.callsRemoved)
    (h₂ : a.placeholdersInserted = b.placeholdersInserted)
    (h₃ : a.constructsRemoved = b.constructsRemoved) (h₄ : a.clausesRemoved = b.clausesRemoved)
    (h₅ : a.emptyBlocksKept = b.emptyBlocksKept) : a = b := by
  cases a
  cases b
  simp_all

instance : AddCommMonoid Tally where
  add_assoc a b c := by ext <;> exact Nat.add_assoc _ _ _
  zero_add a := by ext <;> exact Nat.zero_add _
  add_zero a := rfl
  add_comm a b := by ext <;> exact Nat.add_comm _ _
  nsmul := nsmulRec

/-- The tally holds what the statements `after` have lost and gained against the statements
`before`, where `dropped` clauses went from a construct around them. -/
structure Balances (targets : TargetSet) (tally : Tally) (dropped : Nat)
    (before after : List Statement) :
    Prop where
  calls : after.countP targets.isHit + tally.callsRemoved = before.countP targets.isHit
  constructs : (Statement.constructsOf after).length + tally.constructsRemoved =
    (Statement.constructsOf before).length
  placeholders : after.countP Statement.isPlaceholder =
    before.countP Statement.isPlaceholder + tally.placeholdersInserted
  clauses : Construct.droppedCount (Statement.constructsOf after) + dropped =
    Construct.droppedCount (Statement.constructsOf before) + tally.clausesRemoved

namespace Balances

variable {targets : TargetSet} {tally tally' : Tally} {dropped dropped' : Nat}
  {before mid after before' after' : List Statement}

/-- Nothing was lost and nothing gained. Blocks that stay empty are no part of the balance. -/
theorem refl (statements : List Statement) (emptyBlocksKept : Nat) :
    Balances targets { emptyBlocksKept } 0 statements statements := ⟨rfl, rfl, rfl, rfl⟩

theorem trans (h : Balances targets tally dropped before mid)
    (h' : Balances targets tally' dropped' mid after) :
    Balances targets (tally + tally') (dropped + dropped') before after := by
  obtain ⟨h₁, h₂, h₃, h₄⟩ := h
  obtain ⟨h₁', h₂', h₃', h₄'⟩ := h'
  constructor <;> simp only [callsRemoved_add, constructsRemoved_add, placeholdersInserted_add,
    clausesRemoved_add] <;> omega

theorem append (h : Balances targets tally dropped before after)
    (h' : Balances targets tally' dropped' before' after') :
    Balances targets (tally + tally') (dropped + dropped') (before ++ before')
      (after ++ after') := by
  obtain ⟨h₁, h₂, h₃, h₄⟩ := h
  obtain ⟨h₁', h₂', h₃', h₄'⟩ := h'
  constructor <;> simp only [callsRemoved_add, constructsRemoved_add, placeholdersInserted_add,
    clausesRemoved_add, List.countP_append, Statement.constructsOf_append, List.length_append,
    Construct.droppedCount_append] <;> omega

/-- One clause more is dropped, with nothing in it. -/
theorem dropClause (h : Balances targets tally dropped before after) :
    Balances targets (tally + { clausesRemoved := 1 }) (dropped + 1) before after :=
  ⟨h.calls, h.constructs, h.placeholders, congrArg (· + 1) h.clauses⟩

theorem flatMap {α : Type} {l : List α} {tallyOf : α → Tally} {f g : α → List Statement}
    (h : ∀ x ∈ l, Balances targets (tallyOf x) 0 (f x) (g x)) :
    Balances targets (l.map tallyOf).sum 0 (l.flatMap f) (l.flatMap g) := by
  induction l with
  | nil => exact refl [] 0
  | cons x rest ih =>
    rw [List.forall_mem_cons] at h
    exact h.1.append (ih h.2)

/-- A construct balances once what is inside it does and the clauses dropped from it are accounted
for. -/
theorem compound {c d : Construct} (dropped : Nat)
    (h : Balances targets tally dropped c.inner d.inner)
    (hdropped : d.dropped.length = c.dropped.length + dropped) :
    Balances targets tally 0 (Statement.compound c).all (Statement.compound d).all := by
  obtain ⟨h₁, h₂, h₃, h₄⟩ := h
  rw [Statement.all_compound, Statement.all_compound]
  refine ⟨h₁, ?_, h₃, ?_⟩
  · rw [Statement.constructsOf_compound, Statement.constructsOf_compound, List.length_cons,
      List.length_cons]
    omega
  · rw [Statement.constructsOf_compound, Statement.constructsOf_compound,
      Construct.droppedCount_cons, Construct.droppedCount_cons]
    omega

end Balances

end Tally

/-! ### Settling -/

section Settling

variable {targets : TargetSet}

open Tally (Balances)

/-- Filling an emptied clause gains the placeholder. -/
theorem Clause.balances_fill {c : Clause} (h : c.body.statements = []) :
    Balances targets c.fill.2 0 c.body.all c.fill.1.body.all := by
  rw [fill]
  split
  · exact .refl _ 0
  · rw [Block.all_eq, Block.all_eq, h]
    exact ⟨rfl, rfl, rfl, rfl⟩

theorem Clause.balances_fillEmptied {c : Clause}
    (h : c.body.emptied = true → c.body.statements = []) :
    Balances targets c.fillEmptied.2 0 c.body.all c.fillEmptied.1.body.all := by
  rw [fillEmptied]
  split_ifs with hemptied
  · exact balances_fill (h hemptied)
  · exact .refl _ 0

/-- Dropping loses no statement, since only emptied clauses go. -/
theorem Construct.balances_dropFrom {handled : Bool} {clauses : List Clause}
    (h : ∀ c ∈ clauses, c.body.emptied = true → c.body.statements = []) :
    Balances targets (dropFrom handled clauses).tally (dropFrom handled clauses).dropped.length
      (clauses.flatMap (·.body.all)) ((dropFrom handled clauses).kept.flatMap (·.body.all)) := by
  induction clauses with
  | nil => exact .refl [] 0
  | cons c rest ih =>
    rw [List.forall_mem_cons] at h
    have hrest := ih h.2
    rw [dropFrom]
    dsimp only
    split_ifs with hemptied hgo
    · have hsame := (Balances.refl c.body.all 0).append hrest
      rwa [show (({ emptyBlocksKept := 0 } : Tally) = 0) from rfl, zero_add, Nat.zero_add] at hsame
    · have hnil : c.body.all = [] := by
        rw [Block.all_eq, h.1 (by simpa using hemptied), List.flatMap_nil]
      rw [List.flatMap_cons, hnil, List.nil_append, List.length_append]
      exact hrest.dropClause
    · have hfill := (Clause.balances_fill (h.1 (by simpa using hemptied))).append hrest
      rwa [add_comm, Nat.zero_add] at hfill

/-- Settling a construct balances, whether the construct is left or not. -/
theorem Construct.balances_settle {policy : Policy} {c : Construct} (hdropped : c.dropped = [])
    (h : ∀ cl ∈ c.clauses, cl.body.emptied = true → cl.body.statements = []) :
    Balances targets (c.settle policy).2 0 (Statement.compound c).all
      ((c.settle policy).1.toList.flatMap fun d ↦ (Statement.compound d).all) := by
  unfold settle
  split_ifs with hcount
  · rw [Option.toList_some, List.flatMap_singleton]
    exact .refl _ 0
  cases policy with
  | keep =>
    rw [Option.toList_some, List.flatMap_singleton]
    exact .refl _ _
  | fill =>
    dsimp only [fillEmptied]
    rw [Option.toList_some, List.flatMap_singleton]
    refine .compound 0 ?_ rfl
    rw [inner_eq, inner_eq, List.map_map, List.map_map, List.flatMap_map]
    exact .flatMap fun cl hcl ↦ Clause.balances_fillEmptied (h cl hcl)
  | remove =>
    dsimp only [discardEmptied]
    split_ifs with hall
    · -- nothing is left inside the construct, so that only the construct itself is lost
      rw [Bool.and_eq_true, List.all_eq_true] at hall
      have hinner : c.inner = [] := by
        rw [inner_eq, List.flatMap_eq_nil_iff]
        intro cl hcl
        rw [Block.all_eq, List.isEmpty_iff.mp (hall.1 cl hcl), List.flatMap_nil]
      rw [Statement.all_compound, hinner]
      refine ⟨rfl, rfl, rfl, ?_⟩
      rw [Statement.constructsOf_compound, droppedCount_cons, hdropped]
      rfl
    · rw [Option.toList_some, List.flatMap_singleton]
      refine .compound (dropFrom c.isHandled c.clauses).dropped.length ?_ ?_
      · rw [inner_eq, inner_eq]
        exact balances_dropFrom h
      · rw [Span.sortByStart, List.length_mergeSort, List.length_append]

end Settling

/-! ### Pruning -/

section Pruning

open Tally (Balances)

variable {targets : TargetSet} {policy : Policy}

theorem Statement.tally_pruneAll (statements : List Statement) :
    (Statement.pruneAll targets policy statements).tally =
      (statements.map fun s ↦ (s.prune targets policy).2).sum := by
  induction statements with
  | nil => rfl
  | cons s rest ih =>
    rw [pruneAll, List.map_cons, List.sum_cons, ← ih]
    cases (s.prune targets policy).1 <;> rfl

theorem Block.snd_prune (b : Block) :
    (b.prune targets policy).2 = (b.statements.map fun s ↦ (s.prune targets policy).2).sum := by
  cases b
  rw [prune, Statement.tally_pruneAll]

theorem Clause.snd_pruneAll (clauses : List Clause) :
    (Clause.pruneAll targets policy clauses).2 =
      (clauses.map fun cl ↦ (cl.body.prune targets policy).2).sum := by
  induction clauses with
  | nil => rfl
  | cons cl rest ih =>
    cases cl
    rw [pruneAll, List.map_cons, List.sum_cons, ← ih, prune]

theorem Statement.snd_prune_compound (c : Construct) :
    ((Statement.compound c).prune targets policy).2 =
      (c.clauses.map fun cl ↦ (cl.body.prune targets policy).2).sum +
        ((c.pruneInner targets policy).settle policy).2 := by
  obtain ⟨kind, span, clauses, dropped⟩ := c
  rw [prune, Construct.prune, Clause.snd_pruneAll, Clause.fst_pruneAll]
  rfl

/-- Pruning a block balances if pruning each of its statements does. -/
theorem Block.balances_prune_of {b : Block}
    (h : ∀ s ∈ b.statements, Balances targets (s.prune targets policy).2 0 s.all
      ((s.prune targets policy).1.toList.flatMap Statement.all)) :
    Balances targets (b.prune targets policy).2 0 b.all (b.prune targets policy).1.all := by
  rw [snd_prune, all_eq, all_eq, statements_prune, List.filterMap_eq_flatMap_toList,
    List.flatMap_assoc]
  exact .flatMap h

/-- What pruning does to a statement is what its tally says. -/
theorem Statement.balances_prune (s : Statement) (hfresh : ∀ t ∈ s.all, t.IsFresh) :
    Balances targets (s.prune targets policy).2 0 s.all
      ((s.prune targets policy).1.toList.flatMap Statement.all) := by
  induction s using Statement.induct with
  | expression span value =>
    rw [prune]
    split_ifs with hit
    · rw [all_expression]
      refine ⟨?_, rfl, rfl, rfl⟩
      rw [List.countP_cons_of_pos (show targets.isHit (.expression span value) = true from hit)]
      rfl
    · rw [Option.toList_some, List.flatMap_singleton]
      exact .refl _ 0
  | placeholder span => exact (hfresh _ (mem_all_self _)).elim
  | inert span type =>
    rw [prune, Option.toList_some, List.flatMap_singleton]
    exact .refl _ 0
  | compound c ih =>
    obtain ⟨hc, hinner⟩ := forall_all_compound.mp hfresh
    have hc' : c.IsFresh := hc
    have hpruned : Balances targets (c.clauses.map fun cl ↦ (cl.body.prune targets policy).2).sum 0
        (Statement.compound c).all (Statement.compound (c.pruneInner targets policy)).all := by
      refine .compound 0 ?_ rfl
      rw [Construct.inner_eq, Construct.inner_eq, Construct.pruneInner, List.flatMap_map]
      refine .flatMap fun cl hcl ↦ ?_
      rw [Clause.body_prune]
      exact Block.balances_prune_of fun s hs ↦ ih cl hcl s hs (hinner cl hcl s hs)
    have hsettled : Balances targets ((c.pruneInner targets policy).settle policy).2 0
        (Statement.compound (c.pruneInner targets policy)).all
        (((c.pruneInner targets policy).settle policy).1.toList.flatMap fun d ↦
          (Statement.compound d).all) :=
      Construct.balances_settle hc'.dropped fun cl ↦
        Construct.statements_eq_nil_of_emptied targets policy
    rw [snd_prune_compound, fst_prune_compound, Option.toList_map, List.flatMap_map]
    exact hpruned.trans hsettled

/-! ### Blocks that stay empty -/

theorem Tally.emptyBlocksKept_sum {α : Type} (l : List α) (tallyOf : α → Tally) :
    (l.map tallyOf).sum.emptyBlocksKept = (l.map fun x ↦ (tallyOf x).emptyBlocksKept).sum := by
  induction l with
  | nil => rfl
  | cons x rest ih =>
    rw [List.map_cons, List.map_cons, List.sum_cons, List.sum_cons, emptyBlocksKept_add, ih]

theorem Clause.emptyBlocksKept_fill (c : Clause) : c.fill.2.emptyBlocksKept = 0 := by
  rw [fill]
  split <;> rfl

theorem Construct.emptyBlocksKept_dropFrom (handled : Bool) (clauses : List Clause) :
    (dropFrom handled clauses).tally.emptyBlocksKept = 0 := by
  induction clauses with
  | nil => rfl
  | cons c rest ih =>
    rw [dropFrom]
    dsimp only
    split_ifs
    · exact ih
    · exact ih
    · rw [Tally.emptyBlocksKept_add, ih, c.emptyBlocksKept_fill]

/-- Only `keep` leaves blocks empty when it settles a construct. -/
theorem Construct.emptyBlocksKept_settle (hpolicy : policy ≠ .keep) (c : Construct) :
    (c.settle policy).2.emptyBlocksKept = 0 := by
  unfold settle
  split_ifs
  · rfl
  cases policy with
  | keep => exact absurd rfl hpolicy
  | fill =>
    dsimp only [fillEmptied]
    rw [List.map_map, Tally.emptyBlocksKept_sum, List.sum_eq_zero]
    refine List.forall_mem_map.mpr fun cl _ ↦ ?_
    rw [Function.comp_apply, Clause.fillEmptied]
    split_ifs
    · exact cl.emptyBlocksKept_fill
    · rfl
  | remove =>
    dsimp only [discardEmptied]
    split_ifs
    · rfl
    · exact emptyBlocksKept_dropFrom _ _

theorem Construct.settle_keep (c : Construct) :
    c.settle .keep = (some c, { emptyBlocksKept := c.emptiedCount }) := by
  unfold settle
  split_ifs with hcount
  · rw [hcount]
    rfl
  · rfl

theorem Statement.emptyBlocksKept_prune_of_ne (hpolicy : policy ≠ .keep) (s : Statement) :
    (s.prune targets policy).2.emptyBlocksKept = 0 := by
  induction s using Statement.induct with
  | expression span value =>
    rw [prune]
    split_ifs <;> rfl
  | placeholder span => rfl
  | inert span type => rfl
  | compound c ih =>
    rw [snd_prune_compound, Tally.emptyBlocksKept_add, Construct.emptyBlocksKept_settle hpolicy,
      Tally.emptyBlocksKept_sum, List.sum_eq_zero]
    refine List.forall_mem_map.mpr fun cl hcl ↦ ?_
    rw [Block.snd_prune, Tally.emptyBlocksKept_sum, List.sum_eq_zero]
    exact List.forall_mem_map.mpr (ih cl hcl)

theorem Construct.markedCount_flatMap {α : Type} (l : List α) (f : α → List Statement) :
    markedCount (Statement.constructsOf (l.flatMap f)) =
      (l.map fun x ↦ markedCount (Statement.constructsOf (f x))).sum := by
  induction l with
  | nil => rfl
  | cons x rest ih =>
    rw [List.flatMap_cons, Statement.constructsOf_append, markedCount_append, ih, List.map_cons,
      List.sum_cons]

/-- The blocks that a pruned block keeps empty inside it, if that holds of each of its
statements. -/
theorem Block.emptyBlocksKept_prune_of {b : Block}
    (h : ∀ s ∈ b.statements, (s.prune targets policy).2.emptyBlocksKept = Construct.markedCount
      (Statement.constructsOf ((s.prune targets policy).1.toList.flatMap Statement.all))) :
    (b.prune targets policy).2.emptyBlocksKept =
      Construct.markedCount (Statement.constructsOf (b.prune targets policy).1.all) := by
  rw [snd_prune, all_eq, statements_prune, List.filterMap_eq_flatMap_toList, List.flatMap_assoc,
    Construct.markedCount_flatMap, Tally.emptyBlocksKept_sum]
  exact congrArg List.sum (List.map_congr_left h)

/-- Under `keep` the tally holds the blocks in the result that are marked as emptied. -/
theorem Statement.emptyBlocksKept_prune_keep (s : Statement) :
    (s.prune targets .keep).2.emptyBlocksKept = Construct.markedCount
      (constructsOf ((s.prune targets .keep).1.toList.flatMap all)) := by
  induction s using Statement.induct with
  | expression span value =>
    rw [prune]
    split_ifs <;> rfl
  | placeholder span => rfl
  | inert span type => rfl
  | compound c ih =>
    rw [snd_prune_compound, fst_prune_compound, Construct.settle_keep, Option.map_some,
      Option.toList_some, List.flatMap_singleton, all_compound, constructsOf_compound,
      Construct.markedCount_cons, Tally.emptyBlocksKept_add, Tally.emptyBlocksKept_sum,
      Nat.add_comm]
    refine congrArg (_ + ·) ?_
    rw [Construct.inner_eq, Construct.pruneInner, List.flatMap_map, Construct.markedCount_flatMap]
    refine congrArg List.sum (List.map_congr_left fun cl hcl ↦ ?_)
    rw [Clause.body_prune]
    exact Block.emptyBlocksKept_prune_of (ih cl hcl)

end Pruning

/-! ### Trees -/

/-- No call to a target is left in a pruned block. -/
theorem Block.countP_isHit_prune {targets : TargetSet} {policy : Policy} {b : Block}
    (hfresh : ∀ s ∈ b.all, s.IsFresh) :
    (b.prune targets policy).1.all.countP targets.isHit = 0 := by
  rw [List.countP_eq_zero]
  intro s hs hhit
  have hleaf : s.isLeaf = true := by
    cases s with
    | expression => rfl
    | inert => rfl
    | _ => exact hhit
  have hmem : s ∈ (b.prune targets policy).1.leaves := List.mem_filter.mpr ⟨hs, hleaf⟩
  rw [leaves_prune hfresh] at hmem
  have hnot := (List.mem_filter.mp hmem).2
  rw [hhit] at hnot
  exact Bool.noConfusion hnot

theorem Statement.IsFresh.countP_isPlaceholder {statements : List Statement}
    (hfresh : ∀ s ∈ statements, s.IsFresh) : statements.countP Statement.isPlaceholder = 0 := by
  rw [List.countP_eq_zero]
  intro s hs
  rw [(hfresh s hs).isPlaceholder_eq_false]
  exact Bool.false_ne_true

theorem Statement.IsFresh.droppedCount {statements : List Statement}
    (hfresh : ∀ s ∈ statements, s.IsFresh) :
    Construct.droppedCount (constructsOf statements) = 0 := by
  rw [Construct.droppedCount, List.sum_eq_zero]
  refine List.forall_mem_map.mpr fun c hc ↦ ?_
  have hc : c.IsFresh := hfresh _ (mem_constructsOf_iff.mp hc)
  rw [hc.dropped]
  rfl

/-- The tally of a pruning is exact. It holds the number of calls to the targets at all depths; of
constructs that the tree had and its result has no more; of placeholders in the result; of clauses
dropped from the constructs of the result; and, under `keep` alone, of blocks of clauses in the
result that are marked as emptied. -/
theorem Tree.tally_prune (targets : TargetSet) (policy : Policy) (tree : Tree)
    (htargets : targets.paths ≠ []) (hfresh : tree.IsFresh) :
    (tree.prune targets policy).2.callsRemoved = tree.body.all.countP targets.isHit ∧
    (tree.prune targets policy).1.body.constructs.length +
    (tree.prune targets policy).2.constructsRemoved =
      tree.body.constructs.length ∧
    (tree.prune targets policy).2.placeholdersInserted =
      (tree.prune targets policy).1.body.all.countP Statement.isPlaceholder ∧
    (tree.prune targets policy).2.clausesRemoved =
      ((tree.prune targets policy).1.body.constructs.map (·.dropped.length)).sum ∧
    (tree.prune targets policy).2.emptyBlocksKept =
      if policy = .keep then
        ((tree.prune targets policy).1.body.constructs.map Construct.emptiedCount).sum
      else 0 := by
  have hprune : tree.prune targets policy =
      ({ tree with body := (tree.body.prune targets policy).1 },
        (tree.body.prune targets policy).2) := by
    rw [prune, if_neg (by simpa using htargets)]
  have hbalances : Tally.Balances targets (tree.body.prune targets policy).2 0 tree.body.all
      (tree.body.prune targets policy).1.all :=
    Block.balances_prune_of fun s hs ↦ s.balances_prune (Block.forall_all.mp hfresh.statements s hs)
  obtain ⟨hcalls, hconstructs, hplaceholders, hclauses⟩ := hbalances
  rw [Block.countP_isHit_prune hfresh.statements, Nat.zero_add] at hcalls
  rw [Statement.IsFresh.countP_isPlaceholder hfresh.statements, Nat.zero_add] at hplaceholders
  rw [Statement.IsFresh.droppedCount hfresh.statements, Nat.zero_add, Nat.add_zero] at hclauses
  rw [hprune]
  refine ⟨hcalls, hconstructs, hplaceholders.symm, hclauses.symm, ?_⟩
  split_ifs with hpolicy
  · subst hpolicy
    exact Block.emptyBlocksKept_prune_of fun s _ ↦ s.emptyBlocksKept_prune_keep
  · rw [Block.snd_prune, Tally.emptyBlocksKept_sum, List.sum_eq_zero]
    exact List.forall_mem_map.mpr fun s _ ↦ s.emptyBlocksKept_prune_of_ne hpolicy

/-- In the specimen three calls to `print` go, and with them the loop that held the last one and the
clause around that loop; the other two clauses get a placeholder each. -/
theorem Tree.tally_prune_specimen :
    (⟨["print"]⟩ : TargetSet).paths ≠ [] ∧ specimenTree.IsFresh ∧
    (specimenTree.prune ⟨["print"]⟩ .remove).2 = ⟨3, 2, 1, 1, 0⟩ ∧
    specimenTree.body.all.countP (TargetSet.isHit ⟨["print"]⟩) = 3 ∧
    (specimenTree.prune ⟨["print"]⟩ .remove).1.body.constructs.length + 1 =
      specimenTree.body.constructs.length ∧
    (specimenTree.prune ⟨["print"]⟩ .remove).1.body.all.countP Statement.isPlaceholder = 2 ∧
    ((specimenTree.prune ⟨["print"]⟩ .remove).1.body.constructs.map (·.dropped.length)).sum =
      1 := by
  have htargets : (⟨["print"]⟩ : TargetSet).paths ≠ [] := by decide
  have htally : (specimenTree.prune ⟨["print"]⟩ .remove).2 = ⟨3, 2, 1, 1, 0⟩ := by decide +kernel
  have hfresh := check_specimen.2.1
  have hexact := Tree.tally_prune ⟨["print"]⟩ .remove specimenTree htargets hfresh
  rw [htally] at hexact
  dsimp only at hexact
  obtain ⟨hcalls, hconstructs, hplaceholders, hclauses, -⟩ := hexact
  exact ⟨htargets, hfresh, htally, hcalls.symm, hconstructs, hplaceholders.symm, hclauses.symm⟩

end Declutter
