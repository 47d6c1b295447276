import Declutter.Edit
import Declutter.Tree.Basic
/-!
Writing a pruned tree back: excised statements, dropped clauses and placeholders become edits of the
source, so that everything else keeps its exact text.
-/

set_option autoImplicit false
set_option relaxedAutoImplicit false

namespace Declutter

/-- Why a tree cannot be written back. -/
inductive RenderFault where
  | codeAfterStatement (offset : Nat)
  | clauseInsideLine (offset : Nat)
  | codeAfterClause (offset : Nat)
  | edit (fault : EditFault)
deriving DecidableEq, Repr

def RenderFault.message : RenderFault → Text
  | codeAfterStatement offset => "Unexpected code after statement at offset " ++ Text.ofNat offset
  | clauseInsideLine offset =>
    "Clause at offset " ++ Text.ofNat offset ++ " does not start its line"
  | codeAfterClause offset => "Unexpected code after clause at offset " ++ Text.ofNat offset
  | edit fault => fault.message

namespace Edit

/-- The text of a placeholder. -/
def placeholderText : Text := "pass"

/-- Whether the text is blank or, blanks aside, a comment. -/
def holdsNoCode (t : Text) : Bool :=
  match t.trimStart with
  | [] => true
  | u :: _ => u == '#'

/-- What follows a semicolon and the padding around it at the start of the text. -/
def afterSeparator? (t : Text) : Option Text :=
  match t.dropWhile CodeUnit.isPadding with
  | u :: rest => if u = ';' then some (rest.dropWhile CodeUnit.isPadding) else none
  | [] => none

/-- What precedes a semicolon and the padding around it at the end of the text. -/
def beforeSeparator? (t : Text) : Option Text := (afterSeparator? t.reverse).map List.reverse

/-- Whether the text is one semicolon with padding around it. -/
def isSeparator (t : Text) : Bool := afterSeparator? t == some []

/-- Takes away whole lines, with the line feed that ends the last one. -/
def deleteLines (source : Text) (start stop : Nat) : Edit :=
  .deletion start (if stop < source.length then stop + 1 else stop)

/-- Joins each run of spans that only semicolons separate; `last` is the run in hand. -/
def joinRuns (source : Text) (last : Span) : List Span → List Span
  | [] => [last]
  | s :: rest =>
    if isSeparator (source.slice last.stop s.start) then
      joinRuns source { last with stop := s.stop } rest
    else last :: joinRuns source s rest

/-- The spans in order, with each run of spans that only semicolons separate made one. -/
def runsOf (source : Text) (spans : List Span) : List Span :=
  match Span.sortByStart spans with
  | [] => []
  | first :: rest => joinRuns source first rest

/-- The edit that takes a statement out of the source. A statement alone on its lines takes them and
any comment after it along; one that shares its line with others takes itself and one semicolon. -/
def deleteStatement (source : Text) (span : Span) : Except RenderFault Edit :=
  let lineStart := source.lineStart span.start
  let lineEnd := source.lineEnd span.stop
  let before := source.slice lineStart span.start
  let after := source.slice span.stop lineEnd
  if before.isBlank then
    match afterSeparator? after with
    | some following =>
      if holdsNoCode following then .ok (deleteLines source lineStart lineEnd)
      else .ok (.deletion span.start (span.stop + (after.length - following.length)))
    | none =>
      if holdsNoCode after then .ok (deleteLines source lineStart lineEnd)
      else .error (.codeAfterStatement span.stop)
  else
    match beforeSeparator? before, afterSeparator? after with
    | some preceding, _ => .ok (.deletion (lineStart + preceding.length) span.stop)
    | none, some following =>
      .ok (.deletion span.start (span.stop + (after.length - following.length)))
    | none, none => .ok (.deletion span.start span.stop)

/-- The edit that takes out a clause, which holds whole lines. -/
def deleteClause (source : Text) (span : Span) : Except RenderFault Edit :=
  let lineStart := source.lineStart span.start
  let lineEnd := source.lineEnd span.stop
  if !(source.slice lineStart span.start).isBlank then .error (.clauseInsideLine span.start)
  else if !holdsNoCode (source.slice span.stop lineEnd) then .error (.codeAfterClause span.stop)
  else .ok (deleteLines source lineStart lineEnd)

mutual

/-- The edits of a block: its excised statements, then what its statements hold. -/
def ofBlock (source : Text) : Block → Except RenderFault (List Edit)
  | ⟨_, statements, excised, _⟩ => do
    let own ← (runsOf source excised).mapM (deleteStatement source)
    let inner ← ofStatements source statements
    return own ++ inner

def ofStatements (source : Text) : List Statement → Except RenderFault (List Edit)
  | [] => .ok []
  | s :: rest => do
    let first ← ofStatement source s
    let others ← ofStatements source rest
    return first ++ others

def ofStatement (source : Text) : Statement → Except RenderFault (List Edit)
  | .placeholder span => .ok [⟨span.start, span.stop, placeholderText⟩]
  | .expression .. | .inert .. => .ok []
  | .compound construct => ofConstruct source construct

def ofConstruct (source : Text) : Construct → Except RenderFault (List Edit)
  | ⟨_, _, clauses, dropped⟩ => do
    let inner ← ofClauses source clauses
    let own ← dropped.mapM (deleteClause source)
    return inner ++ own

def ofClauses (source : Text) : List Clause → Except RenderFault (List Edit)
  | [] => .ok []
  | ⟨_, _, body⟩ :: rest => do
    let first ← ofBlock source body
    let others ← ofClauses source rest
    return first ++ others

end

end Edit

namespace Tree

/-- The edits that carry out what was removed from the tree, in the order of the tree. -/
def edits (tree : Tree) : Except RenderFault (List Edit) := Edit.ofBlock tree.source tree.body

/-- The text of the tree. A tree from which nothing was removed gives its source. -/
def render (tree : Tree) : Except RenderFault Text := do
  (Edit.applyAll (← tree.edits) tree.source).mapError .edit

end Tree

end Declutter
