import Declutter.Python.Lowering
import Declutter.Tree.Prune
import Declutter.Tree.Edits
import Declutter.Comment.Strip
/-!
Removal from one text: the calls to the targets go and the emptied blocks are settled, the result is
read again to make sure that it is still Python, and then the comments go if that is asked for.
There is a result only if every step succeeds.
-/

set_option autoImplicit false
set_option relaxedAutoImplicit false

namespace Declutter

/-- What to remove from a text. The names of the targets and the policy are given as they were
written. -/
structure Removal where
  targets : List Text := ["print"]
  policy : Text := "pass"
  removeComments : Bool := false
  comments : CommentRules := {}

/-- Why nothing can be removed from a text. -/
inductive RemovalFault where
  /-- The source is not valid Python. -/
  | source (fault : Python.SyntaxFault)
  | setting (fault : SettingFault)
  | render (fault : RenderFault)
  /-- The result would not be valid Python. -/
  | result (fault : Python.SyntaxFault)
deriving DecidableEq, Repr

def RemovalFault.message : RemovalFault → Text
  | source fault => fault.message
  | setting fault => fault.message
  | render fault => fault.message
  | result fault => "Rendered output no longer parses: " ++ fault.message

/-- A text after removal, and what was done to it. -/
structure Cleaned where
  text : Text
  changed : Bool
  tally : Tally
  commentsRemoved : Nat

/-- The text after its comments were removed, if that is asked for, and their number. -/
def Removal.strip (removal : Removal) (t : Text) : Except RemovalFault (Text × Nat) :=
  if removal.removeComments then
    match t.strip removal.comments with
    | .ok (stripped, removed) => .ok (stripped, removed.length)
    | .error fault => .error (.render (.edit fault))
  else .ok (t, 0)

/-- Whether a text still has to be read as Python after pruning by a policy. -/
def Policy.demandsSyntax (policy : Policy) : Bool := policy != .keep

/-- The text after removal. The targets and the policy are checked before the text is read. -/
def Removal.apply (removal : Removal) (source : Text) (parse : Text → Python.Node := Python.parse) :
    Except RemovalFault Cleaned := do
  let policy ← (Policy.ofWord removal.policy).mapError .setting
  let targets ← (TargetSet.ofNames removal.targets).mapError .setting
  let tree ← (Python.readTree source parse).mapError .source
  let (pruned, tally) := tree.prune targets policy
  let rendered ← pruned.render.mapError .render
  if policy.demandsSyntax && rendered != source then
    match Python.check rendered parse with
    | some fault => throw (.result fault)
    | none => pure ()
  let (text, commentsRemoved) ← removal.strip rendered
  return { text, changed := text != source, tally, commentsRemoved }

end Declutter
