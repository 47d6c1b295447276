import Declutter.Tree.Settle
/-!
Pruning a tree: every expression statement that is nothing but a call to a target goes. Blocks are
walked from the inside out, and each construct is settled as soon as its clauses are done, so that
the block around it sees what is left of it.
-/

set_option autoImplicit false
set_option relaxedAutoImplicit false

namespace Declutter

/-- What is left of a list of statements: those kept, the spans of those that went, and what was
done. -/
structure Survivors where
  kept : List Statement
  excised : List Span
  tally : Tally

mutual

/-- The statement after pruning, or `none` if it goes. -/
def Statement.prune (targets : TargetSet) (policy : Policy) : Statement → Option Statement × Tally
  | .expression span value =>
    if targets.isTarget value then (none, { callsRemoved := 1 })
    else (some (.expression span value), 0)
  | .compound construct =>
    let pruned := construct.prune targets policy
    (pruned.1.map .compound, pruned.2)
  | .placeholder span => (some (.placeholder span), 0)
  | .inert span type => (some (.inert span type), 0)

/-- The construct after pruning its clauses and settling the emptied ones. -/
def Construct.prune (targets : TargetSet) (policy : Policy) : Construct → Option Construct × Tally
  | ⟨kind, span, clauses, dropped⟩ =>
    let pruned := Clause.pruneAll targets policy clauses
    let settled := Construct.settle policy ⟨kind, span, pruned.1, dropped⟩
    (settled.1, pruned.2 + settled.2)

def Clause.pruneAll (targets : TargetSet) (policy : Policy) : List Clause → List Clause × Tally
  | [] => ([], 0)
  | c :: rest =>
    let first := c.prune targets policy
    let others := Clause.pruneAll targets policy rest
    (first.1 :: others.1, first.2 + others.2)

def Clause.prune (targets : TargetSet) (policy : Policy) : Clause → Clause × Tally
  | ⟨role, span, body⟩ =>
    let pruned := body.prune targets policy
    (⟨role, span, pruned.1⟩, pruned.2)

def Block.prune (targets : TargetSet) (policy : Policy) : Block → Block × Tally
  | ⟨span, statements, excised, _⟩ =>
    let survivors := Statement.pruneAll targets policy statements
    (⟨span, survivors.kept, excised ++ survivors.excised,
        !survivors.excised.isEmpty && survivors.kept.isEmpty⟩,
      survivors.tally)

def Statement.pruneAll (targets : TargetSet) (policy : Policy) : List Statement → Survivors
  | [] => ⟨[], [], 0⟩
  | s :: rest =>
    let first := s.prune targets policy
    let others := Statement.pruneAll targets policy rest
    match first.1 with
    | some kept => { others with kept := kept :: others.kept, tally := first.2 + others.tally }
    | none => { others with excised := s.span :: others.excised, tally := first.2 + others.tally }

end

/-- The tree without the calls to the targets, and what was done to it. With no target at all the
tree comes back as it is. -/
def Tree.prune (targets : TargetSet) (policy : Policy) (tree : Tree) :
    Tree × Tally :=
  if targets.paths.isEmpty then (tree, 0)
  else
    let pruned := tree.body.prune targets policy
    ({ tree with body := pruned.1 }, pruned.2)

end Declutter
