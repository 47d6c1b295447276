import Declutter.Tree.Basic
import Declutter.Policy
/-!
Settling the emptied clauses of a construct. Under `fill` each gets a placeholder; under `keep` they
stay empty and are counted; under `remove` a construct whose clauses are all empty disappears, and
otherwise a clause is dropped exactly where no other clause can run in its stead, while the rest are
filled.
-/

set_option autoImplicit false
set_option relaxedAutoImplicit false

namespace Declutter

/-- What pruning has done. -/
structure Tally where
  callsRemoved : Nat := 0
  placeholdersInserted : Nat := 0
  constructsRemoved : Nat := 0
  clausesRemoved : Nat := 0
  emptyBlocksKept : Nat := 0
deriving DecidableEq, Repr

namespace Tally

instance : Zero Tally := ⟨{}⟩

instance : Add Tally where
  add a b :=
    { callsRemoved := a.callsRemoved + b.callsRemoved
      placeholdersInserted := a.placeholdersInserted + b.placeholdersInserted
      constructsRemoved := a.constructsRemoved + b.constructsRemoved
      clausesRemoved := a.clausesRemoved + b.clausesRemoved
      emptyBlocksKept := a.emptyBlocksKept + b.emptyBlocksKept }

end Tally

/-- Whether an emptied clause with this role can go without another clause running in its stead.
`trailing` says that all later clauses go too, `handled` that the construct has a handler. -/
def Role.canGo (role : Role) (trailing handled : Bool) : Bool :=
  match role with
  | .orElse => true
  | .elif => trailing
  | .cleanup => handled
  | .primary | .handler | .case => false

namespace Clause

/-- The clause with a placeholder at the first excised span of its block. A block from which nothing
was excised has no place for one and stays. -/
def fill (c : Clause) : Clause × Tally :=
  match c.body.excised with
  | [] => (c, 0)
  | anchor :: rest =>
    ({ c with body :=
        { c.body with statements := [.placeholder anchor], excised := rest, emptied := false } },
      { placeholdersInserted := 1 })

/-- The clause filled if it is emptied. -/
def fillEmptied (c : Clause) : Clause × Tally := if c.body.emptied then c.fill else (c, 0)

end Clause

namespace Construct

/-- The clauses of a construct after dropping: those kept, the spans of those dropped (the last
clause first), and whether none was kept. -/
structure Dropped where
  kept : List Clause
  dropped : List Span
  trailing : Bool
  tally : Tally

/-- Drops what can be dropped of the emptied clauses, from the last to the first, and fills the
rest. -/
def dropFrom (handled : Bool) : List Clause → Dropped
  | [] => ⟨[], [], true, 0⟩
  | c :: rest =>
    let later := dropFrom handled rest
    if !c.body.emptied then { later with kept := c :: later.kept, trailing := false }
    else if c.role.canGo later.trailing handled then
      { later with
        dropped := later.dropped ++ [c.span]
        tally := later.tally + { clausesRemoved := 1 } }
    else
      let filled := c.fill
      { later with kept := filled.1 :: later.kept, trailing := false, tally :=
        later.tally + filled.2 }

/-- Whether some clause handles an exception. -/
def isHandled (c : Construct) : Bool := c.clauses.any (·.role = .handler)

/-- The construct without its emptied clauses, as far as they can go; `none` if nothing of it is
left. -/
def discardEmptied (c : Construct) : Option Construct × Tally :=
  if c.clauses.all (·.body.statements.isEmpty) && !c.kind.bindsName then
    (none, { constructsRemoved := 1 })
  else
    let fewer := dropFrom c.isHandled c.clauses
    (some { c with
        clauses := fewer.kept
        dropped := Span.sortByStart (c.dropped ++ fewer.dropped) },
      fewer.tally)

/-- Fills every emptied clause. -/
def fillEmptied (c : Construct) : Construct × Tally :=
  let filled := c.clauses.map Clause.fillEmptied
  ({ c with clauses := filled.map (·.1) }, (filled.map (·.2)).sum)

/-- The number of emptied clauses. -/
def emptiedCount (c : Construct) : Nat := (c.clauses.filter (·.body.emptied)).length

/-- Settles the emptied clauses by the policy; `none` means that the construct goes. -/
def settle (policy : Policy) (c : Construct) : Option Construct × Tally :=
  if c.emptiedCount = 0 then (some c, 0)
  else match policy with
    | .keep => (some c, { emptyBlocksKept := c.emptiedCount })
    | .fill => let filled := c.fillEmptied; (some filled.1, filled.2)
    | .remove => c.discardEmptied

end Construct

end Declutter
