import Declutter.Proofs.Tree.Survival
/-!
Pruning never changes which code runs. A tree has a trace relative to an oracle, which answers for
each clause, by its span, whether its guard holds, how often its loop goes round and whether the
loop completes. The trace of a pruned tree, placeholders aside, is the trace of the tree without the
calls to the targets (`Tree.trace_prune`), under each policy and for every oracle.

The trace of a construct is computed from its branches: the role, the span and the events of each
clause. Settling either leaves a branch as it is or drops a branch without events (`Thinned`), and
for a grammatical construct no other branch takes the place of one that is dropped
(`Oracle.run_of_thinned`).
-/

set_option autoImplicit false
set_option relaxedAutoImplicit false

namespace Declutter

/-! ### Traces -/

/-- What decides over the course of a run. Each answer is keyed by the span of a clause. -/
structure Oracle where
  /-- Whether the guard of the clause is true, its case is accepted or its handler is picked. -/
  takes : Span → Bool
  /-- How often the loop with this primary clause goes round. -/
  rounds : Span → Nat
  /-- Whether the loop with this primary clause completes. -/
  completes : Span → Bool

/-- A clause as far as a run of its construct needs it. -/
structure Branch where
  role : Role
  span : Span
  /-- What a run of the block emits. -/
  events : List Statement

namespace Branch

/-- The events of the first branch that satisfies `p`. -/
def firstEvents (p : Branch → Bool) (branches : List Branch) : List Statement :=
  ((branches.find? p).map (·.events)).getD []

/-- The events of the branches in a role. Apart from `elif`, handlers and cases, a grammatical
construct has at most one clause in each role. -/
def eventsIn (role : Role) (branches : List Branch) : List Statement :=
  (branches.filter (·.role = role)).flatMap (·.events)

/-- The branch with only those events that satisfy `p`. -/
def restrict (p : Statement → Bool) (b : Branch) : Branch := { b with events := b.events.filter p }

end Branch

/-- What a run of a construct emits. -/
def Oracle.run (o : Oracle) (kind : ConstructKind) (branches : List Branch) : List Statement :=
  match kind with
  | .conditional => Branch.firstEvents (fun b ↦ b.role = .orElse || o.takes b.span) branches
  | .selection => Branch.firstEvents (fun b ↦ o.takes b.span) branches
  | .forLoop | .whileLoop =>
    match branches.find? (·.role = .primary) with
    | some body =>
      (List.replicate (o.rounds body.span) body.events).flatten ++
        if o.completes body.span then Branch.eventsIn .orElse branches else []
    | none => []
  | .attempt =>
    Branch.eventsIn .primary branches ++
      (match branches.find? fun b ↦ b.role = .handler && o.takes b.span with
      | some handler => handler.events
      | none => Branch.eventsIn .orElse branches) ++
      Branch.eventsIn .cleanup branches
  | .context | .function _ | .classBody _ => Branch.eventsIn .primary branches

mutual

/-- What a run of the statement emits: a leaf emits itself. -/
def Statement.trace (o : Oracle) : Statement → List Statement
  | .compound c => c.trace o
  | .expression span value => [.expression span value]
  | .placeholder span => [.placeholder span]
  | .inert span type => [.inert span type]

def Construct.trace (o : Oracle) : Construct → List Statement
  | ⟨kind, _, clauses, _⟩ => o.run kind (Clause.branches o clauses)

/-- The branches that the clauses are. -/
def Clause.branches (o : Oracle) : List Clause → List Branch
  | [] => []
  | ⟨role, span, body⟩ :: rest => ⟨role, span, body.trace o⟩ :: Clause.branches o rest

/-- What a run of the block emits: its statements run one after the other. -/
def Block.trace (o : Oracle) : Block → List Statement
  | ⟨_, statements, _, _⟩ => Statement.traceAll o statements

def Statement.traceAll (o : Oracle) : List Statement → List Statement
  | [] => []
  | s :: rest => s.trace o ++ Statement.traceAll o rest

end

section Equations

variable (o : Oracle)

/-- The clause as a branch. -/
def Clause.branch (cl : Clause) : Branch := ⟨cl.role, cl.span, cl.body.trace o⟩

theorem Clause.branches_eq (clauses : List Clause) :
    Clause.branches o clauses = clauses.map (Clause.branch o) := by
  induction clauses with
  | nil => rfl
  | cons cl rest ih =>
    cases cl
    rw [Clause.branches, ih, List.map_cons, Clause.branch]

theorem Statement.trace_compound (c : Construct) :
    (Statement.compound c).trace o = o.run c.kind (c.clauses.map (Clause.branch o)) := by
  cases c
  rw [Statement.trace, Construct.trace, Clause.branches_eq]

theorem Statement.traceAll_eq (statements : List Statement) :
    Statement.traceAll o statements = statements.flatMap (Statement.trace o) := by
  induction statements with
  | nil => rfl
  | cons s rest ih => rw [Statement.traceAll, ih, List.flatMap_cons]

theorem Block.trace_eq (b : Block) : b.trace o = b.statements.flatMap (Statement.trace o) := by
  cases b
  rw [Block.trace, Statement.traceAll_eq]

end Equations

/-! ### Runs and events -/

namespace Branch

variable {p : Statement → Bool}

theorem find?_map_restrict (q : Branch → Bool) (hq : ∀ b, q (b.restrict p) = q b)
    (branches : List Branch) :
    (branches.map (restrict p)).find? q = (branches.find? q).map (restrict p) := by
  rw [List.find?_map]
  congr 2
  exact funext hq

theorem firstEvents_map_restrict (q : Branch → Bool) (hq : ∀ b, q (b.restrict p) = q b)
    (branches : List Branch) :
    firstEvents q (branches.map (restrict p)) = (firstEvents q branches).filter p := by
  rw [firstEvents, firstEvents, find?_map_restrict q hq]
  cases branches.find? q <;> rfl

theorem firstEvents_of_silent (q : Branch → Bool) {branches : List Branch}
    (h : ∀ b ∈ branches, b.events = []) : firstEvents q branches = [] := by
  rw [firstEvents]
  cases hfind : branches.find? q with
  | none => rfl
  | some b => exact h b (List.mem_of_find?_eq_some hfind)

theorem eventsIn_map_restrict (role : Role) (branches : List Branch) :
    eventsIn role (branches.map (restrict p)) = (eventsIn role branches).filter p := by
  rw [eventsIn, eventsIn, List.filter_map, List.flatMap_map, List.filter_flatMap]
  rfl

end Branch

/-- A run emits the events of its branches and depends on nothing else in them: leaving out events
before the run or after it is the same. -/
theorem Oracle.run_map_restrict (o : Oracle) (kind : ConstructKind) (p : Statement → Bool)
    (branches : List Branch) :
    o.run kind (branches.map (Branch.restrict p)) = (o.run kind branches).filter p := by
  have hloop : o.run .whileLoop (branches.map (Branch.restrict p)) =
      (o.run .whileLoop branches).filter p := by
    simp only [run]
    rw [Branch.find?_map_restrict _ fun _ ↦ rfl, Branch.eventsIn_map_restrict]
    cases branches.find? (·.role = .primary) with
    | none => rfl
    | some body =>
      rw [Option.map_some, List.filter_append, List.filter_flatten, List.map_replicate]
      dsimp only [Branch.restrict]
      split_ifs <;> rfl
  cases kind with
  | conditional => exact Branch.firstEvents_map_restrict _ (fun _ ↦ rfl) _
  | selection => exact Branch.firstEvents_map_restrict _ (fun _ ↦ rfl) _
  | forLoop => exact hloop
  | whileLoop => exact hloop
  | attempt =>
    simp only [run, Branch.eventsIn_map_restrict, List.filter_append]
    rw [Branch.find?_map_restrict _ fun _ ↦ rfl]
    cases branches.find? (fun b ↦ b.role = .handler && o.takes b.span) <;> rfl
  | context => exact Branch.eventsIn_map_restrict _ _
  | function => exact Branch.eventsIn_map_restrict _ _
  | classBody => exact Branch.eventsIn_map_restrict _ _

/-! ### Dropping silent branches -/

/-- The branches of a construct before and after its emptied clauses are dropped: a branch that goes
has no events, and an `elif` goes only together with all branches after it. -/
inductive Thinned : List Branch → List Branch → Prop where
  | nil : Thinned [] []
  | keep (b : Branch) {before after : List Branch} (rest : Thinned before after) :
      Thinned (b :: before) (b :: after)
  | drop (b : Branch) {before after : List Branch} (silent : b.events = [])
      (guard : b.role = .orElse ∨ b.role = .cleanup ∨ b.role = .elif ∧ after = [])
      (rest : Thinned before after) : Thinned (b :: before) after

/-- The roles that only a dropped branch can have. -/
def Role.isOptional : Role → Bool
  | .orElse | .cleanup | .elif => true
  | .primary | .handler | .case => false

theorem Role.ne_of_isOptional {r s : Role} (hr : r.isOptional = true) (hs : s.isOptional = false) :
    r ≠ s := by
  rintro rfl
  exact Bool.noConfusion (hr.symm.trans hs)

namespace Thinned

variable {before after : List Branch}

/-- Where no branch is left, none had events. -/
theorem silent (h : Thinned before []) : ∀ b ∈ before, b.events = [] := by
  generalize hafter : ([] : List Branch) = after at h
  induction h with
  | nil => simp
  | keep => exact absurd hafter (by simp)
  | drop b hb _ _ ih => exact List.forall_mem_cons.mpr ⟨hb, ih hafter⟩

theorem eventsIn_eq (h : Thinned before after) (role : Role) :
    Branch.eventsIn role after = Branch.eventsIn role before := by
  induction h with
  | nil => rfl
  | keep b _ ih =>
    rw [Branch.eventsIn] at ih
    rw [Branch.eventsIn, Branch.eventsIn, List.filter_cons, List.filter_cons]
    split_ifs
    · rw [List.flatMap_cons, List.flatMap_cons, ih, Branch.eventsIn]
    · exact ih
  | drop b hsilent _ _ ih =>
    rw [ih, Branch.eventsIn, Branch.eventsIn, List.filter_cons]
    split_ifs
    · rw [List.flatMap_cons, hsilent, List.nil_append]
    · rfl

/-- A search that passes over every branch that can be dropped finds the same branch. -/
theorem find?_eq (h : Thinned before after) (p : Branch → Bool)
    (hp : ∀ b, b.role.isOptional = true → p b = false) : after.find? p = before.find? p := by
  induction h with
  | nil => rfl
  | keep b _ ih => rw [List.find?_cons, List.find?_cons, ih]
  | drop b _ guard _ ih =>
    have hrole : b.role.isOptional = true := by
      rcases guard with hrole | hrole | ⟨hrole, -⟩ <;> rw [hrole] <;> rfl
    rw [ih, List.find?_cons, hp b hrole]

/-- Branches in roles that are never dropped are all still there. -/
theorem eq_of_not_optional (h : Thinned before after)
    (hroles : ∀ b ∈ before, b.role.isOptional = false) : after = before := by
  induction h with
  | nil => rfl
  | keep b _ ih => rw [ih (List.forall_mem_cons.mp hroles).2]
  | drop b _ guard _ _ =>
    have hrole := (List.forall_mem_cons.mp hroles).1
    rcases guard with h | h | ⟨h, -⟩ <;> rw [h] at hrole <;> exact Bool.noConfusion hrole

/-- Of the branches of an `if`, the first one whose turn comes runs the same events: an `else` is
the last branch, and with an `elif` everything after it goes. -/
theorem firstEvents_eq (h : Thinned before after) (p : Branch → Bool)
    (hp : ∀ b, b.role = .orElse → p b = true)
    (hroles : [[], [Role.orElse]].contains ((before.map (·.role)).dropWhile (· = .elif)) = true) :
    Branch.firstEvents p after = Branch.firstEvents p before := by
  induction h with
  | nil => rfl
  | keep b rest ih =>
    rw [Branch.firstEvents, Branch.firstEvents, List.find?_cons, List.find?_cons]
    cases hb : p b with
    | true => rfl
    | false =>
      rw [List.map_cons, List.dropWhile_cons] at hroles
      split_ifs at hroles with helif
      · exact ih hroles
      · -- neither an `elif` nor an `else`
        have horElse : b.role ≠ .orElse := fun horElse ↦ by simp [hp b horElse] at hb
        simp [horElse] at hroles
  | @drop b before after hsilent guard rest ih =>
    rw [List.map_cons] at hroles
    rcases guard with hrole | hrole | ⟨hrole, rfl⟩
    · have hlast : before = [] := by simpa [hrole] using hroles
      subst hlast
      cases rest
      rw [Branch.firstEvents, Branch.firstEvents, List.find?_cons, hp b hrole,
        Option.map_some, hsilent]
      rfl
    · simp [hrole] at hroles
    · exact (Branch.firstEvents_of_silent p (List.forall_mem_cons.mpr ⟨hsilent, rest.silent⟩)).symm

end Thinned

/-- Branches without events run to nothing, whatever the oracle says. -/
theorem Oracle.run_of_silent (o : Oracle) (kind : ConstructKind) {branches : List Branch}
    (h : ∀ b ∈ branches, b.events = []) : o.run kind branches = [] := by
  have hrestrict : branches.map (Branch.restrict fun _ ↦ false) = branches := by
    refine (List.map_congr_left fun b hb ↦ ?_).trans (List.map_id' _)
    rw [Branch.restrict, List.filter_false, ← h b hb]
  rw [← hrestrict, run_map_restrict, List.filter_false]

/-- Dropping silent branches of a grammatical construct changes no run of it. -/
theorem Oracle.run_of_thinned (o : Oracle) {kind : ConstructKind} {before after : List Branch}
    (h : Thinned before after) (hadmits : kind.admits (before.map (·.role)) = true) :
    o.run kind after = o.run kind before := by
  have hprimary : after.find? (·.role = .primary) = before.find? (·.role = .primary) :=
    h.find?_eq _ fun b hb ↦ decide_eq_false (Role.ne_of_isOptional hb rfl)
  have hhandler : (after.find? fun b ↦ b.role = .handler && o.takes b.span) =
      before.find? fun b ↦ b.role = .handler && o.takes b.span :=
    h.find?_eq _ fun b hb ↦ by rw [decide_eq_false (Role.ne_of_isOptional hb rfl), Bool.false_and]
  cases kind with
  | conditional =>
    obtain ⟨roles, hcons, hroles⟩ := ConstructKind.admits_conditional hadmits
    cases h with
    | nil => rfl
    | keep b rest =>
      rw [List.map_cons, List.cons.injEq] at hcons
      rw [← hcons.2] at hroles
      simp only [run, Branch.firstEvents, List.find?_cons]
      split
      · rfl
      · exact rest.firstEvents_eq _ (fun b hb ↦ by rw [decide_eq_true hb, Bool.true_or]) hroles
    | drop b _ guard _ =>
      -- the primary clause is never dropped
      rw [List.map_cons, List.cons.injEq] at hcons
      simp [hcons.1] at guard
  | selection =>
    have hroles : ∀ b ∈ before, b.role.isOptional = false := fun b hb ↦ by
      rw [ConstructKind.admits_selection hadmits _ (List.mem_map_of_mem hb)]
      rfl
    rw [h.eq_of_not_optional hroles]
  | forLoop => simp only [run, hprimary, h.eventsIn_eq]
  | whileLoop => simp only [run, hprimary, h.eventsIn_eq]
  | attempt => simp only [run, hhandler, h.eventsIn_eq]
  | context => exact h.eventsIn_eq _
  | function => exact h.eventsIn_eq _
  | classBody => exact h.eventsIn_eq _

/-! ### The simulation -/

/-- The clause as a branch, without the events of placeholders. -/
def Clause.liveBranch (o : Oracle) (cl : Clause) : Branch :=
  (cl.branch o).restrict (!·.isPlaceholder)

theorem Clause.events_liveBranch (o : Oracle) {cl : Clause} (h : cl.body.statements = []) :
    (cl.liveBranch o).events = [] := by
  rw [liveBranch, branch, Branch.restrict, Block.trace_eq, h]
  rfl

/-- A placeholder emits nothing that counts. -/
theorem Clause.liveBranch_fill (o : Oracle) {cl : Clause} (h : cl.body.statements = []) :
    cl.fill.1.liveBranch o = cl.liveBranch o := by
  rw [fill]
  split
  · rfl
  · rw [liveBranch, liveBranch, branch, branch, Branch.restrict, Branch.restrict, Block.trace_eq,
      Block.trace_eq, h]
    rfl

/-- Settling drops silent branches and leaves the others as they are. -/
theorem Settles.thinned (o : Oracle) {policy : Policy} {handled : Bool} {before after : List Clause}
    (h : Settles policy handled before after)
    (hempty : ∀ c ∈ before, c.body.emptied = true → c.body.statements = []) :
    Thinned (before.map (Clause.liveBranch o)) (after.map (Clause.liveBranch o)) := by
  induction h with
  | nil => exact .nil
  | keep _ _ ih =>
    rw [List.forall_mem_cons] at hempty
    exact .keep _ (ih hempty.2)
  | fill emptied _ _ ih =>
    rw [List.forall_mem_cons] at hempty
    rw [List.map_cons, List.map_cons, Clause.liveBranch_fill o (hempty.1 emptied)]
    exact .keep _ (ih hempty.2)
  | @drop c before after emptied _ guard _ ih =>
    rw [List.forall_mem_cons] at hempty
    refine .drop _ (Clause.events_liveBranch o (hempty.1 emptied)) ?_ (ih hempty.2)
    rw [List.map_eq_nil_iff, Clause.liveBranch, Clause.branch, Branch.restrict]
    cases hrole : c.role <;> rw [hrole] at guard <;> simp_all [Role.canGo]

section Simulation

variable {targets : TargetSet} {policy : Policy} (o : Oracle)

/-- The events of a pruned block that count are those of the block that are no calls to targets, if
that holds of each of its statements. -/
theorem Block.events_prune_of {b : Block}
    (h : ∀ s ∈ b.statements, ((s.prune targets policy).1.toList.flatMap (Statement.trace o)).filter
      (!·.isPlaceholder) = (s.trace o).filter (!targets.isHit ·)) :
    ((b.prune targets policy).1.trace o).filter (!·.isPlaceholder) =
      (b.trace o).filter (!targets.isHit ·) := by
  rw [trace_eq, statements_prune, List.filterMap_eq_flatMap_toList, List.flatMap_assoc,
    List.filter_flatMap, trace_eq, List.filter_flatMap]
  exact List.flatMap_congr h

/-- Pruning a statement takes the calls to the targets out of its trace and adds nothing but
placeholders. -/
theorem Statement.events_prune (s : Statement) (hfresh : ∀ t ∈ s.all, t.IsFresh)
    (hgrammatical : ∀ t ∈ s.all, t.isGrammatical = true) :
    ((s.prune targets policy).1.toList.flatMap (trace o)).filter (!·.isPlaceholder) =
      (s.trace o).filter (!targets.isHit ·) := by
  induction s using Statement.induct with
  | expression span value =>
    cases h : targets.isTarget value <;>
      simp [prune, trace, TargetSet.isHit, isPlaceholder, h]
  | placeholder span => exact (hfresh _ (mem_all_self _)).elim
  | inert span type => simp [prune, trace, TargetSet.isHit, isPlaceholder]
  | compound c ih =>
    obtain ⟨-, hinner⟩ := forall_all_compound.mp hfresh
    obtain ⟨hadmits, hgrammar⟩ := forall_all_compound.mp hgrammatical
    -- the clauses of the pruned construct emit what is left of the clauses of the construct
    have hbranches : (c.pruneInner targets policy).clauses.map (Clause.liveBranch o) =
        c.clauses.map fun cl ↦ (cl.branch o).restrict (!targets.isHit ·) := by
      rw [Construct.pruneInner, List.map_map]
      refine List.map_congr_left fun cl hcl ↦ ?_
      have hbody := Block.events_prune_of (b := cl.body) o fun s hs ↦
        ih cl hcl s hs (hinner cl hcl s hs) (hgrammar cl hcl s hs)
      rw [Function.comp_apply, Clause.liveBranch, Clause.branch, Branch.restrict, Clause.role_prune,
        Clause.span_prune, Clause.body_prune, hbody]
      rfl
    have hright : ((compound c).trace o).filter (!targets.isHit ·) =
        o.run c.kind ((c.pruneInner targets policy).clauses.map (Clause.liveBranch o)) := by
      rw [hbranches, trace_compound, ← Oracle.run_map_restrict, List.map_map]
      rfl
    rw [hright, fst_prune_compound]
    cases hsettle : ((c.pruneInner targets policy).settle policy).1 with
    | none =>
      have hempty : ∀ cl ∈ (c.pruneInner targets policy).clauses, cl.body.statements = [] :=
        (Construct.settle_eq_none_iff.mp hsettle).2.2.2
      rw [Oracle.run_of_silent]
      · rfl
      · rw [List.forall_mem_map]
        exact fun cl hcl ↦ Clause.events_liveBranch o (hempty cl hcl)
    | some d =>
      obtain ⟨hkind, -, hsettles⟩ := Construct.settles_of_settle hsettle
      have hthinned := hsettles.thinned o fun cl hcl ↦
        Construct.statements_eq_nil_of_emptied targets policy hcl
      have hroles : ((c.pruneInner targets policy).clauses.map (Clause.liveBranch o)).map (·.role) =
          c.clauses.map (·.role) := by
        rw [hbranches, List.map_map]
        rfl
      rw [← o.run_of_thinned hthinned (hroles ▸ hadmits), Option.map_some, Option.toList_some,
        List.flatMap_singleton, trace_compound, ← Oracle.run_map_restrict, List.map_map, hkind]
      rfl

/-- Of a trace only the leaves matter: two predicates that agree on them select the same events. -/
theorem Statement.filter_trace_congr {p q : Statement → Bool} (s : Statement)
    (h : ∀ t ∈ s.all, p t = q t) : (s.trace o).filter p = (s.trace o).filter q := by
  induction s using Statement.induct with
  | expression => exact List.filter_congr (by simpa [trace] using h)
  | placeholder => exact List.filter_congr (by simpa [trace] using h)
  | inert => exact List.filter_congr (by simpa [trace] using h)
  | compound c ih =>
    have hinner := (forall_all_compound.mp h).2
    rw [trace_compound, ← Oracle.run_map_restrict, ← Oracle.run_map_restrict, List.map_map,
      List.map_map]
    congr 1
    refine List.map_congr_left fun cl hcl ↦ ?_
    have hbody : (cl.body.trace o).filter p = (cl.body.trace o).filter q := by
      rw [Block.trace_eq, List.filter_flatMap, List.filter_flatMap]
      exact List.flatMap_congr fun s hs ↦ ih cl hcl s hs (hinner cl hcl s hs)
    rw [Function.comp_apply, Function.comp_apply, Clause.branch, Branch.restrict,
      Branch.restrict, hbody]

end Simulation

/-- Pruning never changes which code runs: whatever the oracle says, the pruned tree runs through
the leaves through which the tree runs, in the same order, without the calls to the targets. Only
placeholders are added. -/
theorem Tree.trace_prune (targets : TargetSet) (policy : Policy) (o : Oracle) (tree : Tree)
    (hfresh : tree.IsFresh) (hgrammatical : tree.IsGrammatical) :
    ((tree.prune targets policy).1.body.trace o).filter (!·.isPlaceholder) =
      (tree.body.trace o).filter (!targets.isHit ·) := by
  by_cases htargets : targets.paths = []
  · -- nothing is a target, and the tree comes back as it is
    rw [prune, if_pos (by simpa using htargets), Block.trace_eq, List.filter_flatMap,
      List.filter_flatMap]
    refine List.flatMap_congr fun s hs ↦ s.filter_trace_congr o fun t ht ↦ ?_
    have hlive : t.isPlaceholder = false :=
      (Block.forall_all.mp hfresh.statements s hs t ht).isPlaceholder_eq_false
    rw [TargetSet.isHit_eq_false htargets, hlive]
  · rw [prune, if_neg (by simpa using htargets)]
    exact Block.events_prune_of o fun s hs ↦
      s.events_prune o (Block.forall_all.mp hfresh.statements s hs)
        (Block.forall_all.mp hgrammatical s hs)

theorem Tree.trace_prune_specimen :
    Python.readTree specimen = .ok specimenTree ∧
    specimenTree.IsFresh ∧ specimenTree.IsGrammatical ∧
    ((specimenTree.prune ⟨["print"]⟩ .remove).1.body.trace
      ⟨fun _ ↦ false, fun _ ↦ 2, fun _ ↦ true⟩).filter
        (!·.isPlaceholder) =
      (specimenTree.body.trace ⟨fun _ ↦ false, fun _ ↦ 2, fun _ ↦ true⟩).filter
        (!TargetSet.isHit ⟨["print"]⟩ ·) ∧
    (specimenTree.body.trace ⟨fun _ ↦ false, fun _ ↦ 2, fun _ ↦ true⟩).length = 4 :=
  ⟨readTree_specimen, check_specimen.2.1, check_specimen.2.2,
    Tree.trace_prune _ _ _ _ check_specimen.2.1 check_specimen.2.2, by decide +kernel⟩

end Declutter
