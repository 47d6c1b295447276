import Declutter.Yaml.Node
/-!
Reading a stream of documents, each of which may start with directives.
-/

set_option autoImplicit false
set_option relaxedAutoImplicit false

namespace Declutter.Yaml

open Read

/-- The words of a directive up to a comment or the end of the line. -/
def directiveWords : (bound : Nat) → Cursor → List Text × Cursor
  | 0, c => ([], c)
  | bound + 1, c =>
    let c := c.skipWhile CodeUnit.isPadding
    if c.peek == some 35 then ([], c.skipLine)
    else if c.rest.isEmpty || c.holds isBreak then ([], c)
    else
      let word := c.span (!isSpace ·)
      let (words, after) := directiveWords bound (c.advance word.length)
      (word :: words, after)

/-- The directives of a document so far. -/
structure Directives where
  version : Bool := false
  handles : List (Text × Text) := []
  any : Bool := false

/-- Whether a text is the first version of the language with some subversion. -/
def isVersion (t : Text) : Except Fault Unit :=
  let major := t.takeWhile CodeUnit.isDigit
  let minor := t.drop (major.length + 1)
  if major.isEmpty || t.drop major.length != "." ++ minor || minor.isEmpty ||
    !minor.all CodeUnit.isDigit then
    .error (.badDirective "ill-formed argument of the YAML directive")
  else if Scalar.value 10 major = 1 then .ok ()
  else .error (.badDirective "unacceptable YAML version of the document")

/-- Takes in a directive; one with an unknown name says nothing. -/
def Directives.add (d : Directives) (name : Text) (arguments : List Text) :
    Except Fault Directives := do
  if name = "YAML" then
    if d.version then throw (.repeatedProperty "%YAML directive")
    match arguments with
    | [version] =>
      isVersion version
      return { d with version := true }
    | _ => throw (.badDirective "YAML directive accepts exactly one argument")
  else if name = "TAG" then
    match arguments with
    | [handle, expansion] =>
      if !Tag.isHandle handle then
        throw (.badDirective "ill-formed tag handle (first argument) of the TAG directive")
      if d.handles.any (·.1 == handle) then throw (.repeatedProperty "a tag handle")
      if !Tag.isUri expansion then
        throw (.badDirective "ill-formed tag prefix (second argument) of the TAG directive")
      match Tag.unescape? [] expansion with
      | some expansion => return { d with handles := d.handles ++ [(handle, expansion)] }
      | none => throw (.badDirective ("tag prefix is malformed: " ++ expansion))
    | _ => throw (.badDirective "TAG directive accepts exactly two arguments")
  else return d

/-- The directives at the place. -/
def directives : (bound : Nat) → Directives → Read Directives
  | 0, d => return d
  | bound + 1, d => do
    let _ ← separate
    let c ← cursor
    if c.peek != some 37 || 0 < c.indent then return d
    else
      let c := c.advance 1
      let name := c.span (!isSpace ·)
      if name.isEmpty then
        throw (.badDirective "directive name must not be less than one character in length")
      let (arguments, c) := directiveWords (c.rest.length + 1) (c.advance name.length)
      move (c.afterBreak?.getD c)
      directives bound { ← (d.add name arguments : Except Fault _) with any := true }

/-- Whether there is more than the last line break to read. -/
def isLeft (c : Cursor) : Bool := 1 < c.rest.length

/-- The document at the place. -/
def document : Read Value := do
  let bound := (← cursor).rest.length + 1
  let d ← directives bound {}
  modify fun s ↦ { s with anchors := [], handles := d.handles }
  let c ← cursor
  if c.indent = 0 ∧ ("---" : Text).isPrefixOf c.rest then
    skip 3
    let _ ← separate
  else if d.any then throw .documentStartExpected
  let n ← nodeWithin (2 * bound + 2) ⟨((← cursor).indent : Int) - 1, .blockOut, false, true⟩
  let _ ← separate
  let c ← cursor
  if c.atDocumentMark then
    if c.peek == some 46 then
      skip 3
      let _ ← separate
    return n.value
  else if isLeft c then throw .documentEndExpected
  else return n.value

/-- The documents from the place on. -/
def documents : (bound : Nat) → List Value → Read (List Value)
  | 0, done => return done
  | bound + 1, done => do
    if !isLeft (← cursor) then return done
    else
      let v ← document
      documents bound (done ++ [v])

/-- The value of the only document in a text; nothing if the text holds none. A byte order mark at
the start does not count. -/
def load (t : Text) : Except Fault (Option Value) := do
  let terminated := if t.getLast?.all isBreak then t else t ++ [10]
  let body := match terminated with
    | 0xFEFF :: rest => rest
    | _ => terminated
  if body.contains 0 then throw .nullUnit
  let (values, _) ← (documents (body.length + 1) []).run
    { cursor := ({ rest := body } : Cursor).measure }
  match values with
  | [] => return none
  | [v] => return some v
  | _ => throw .severalDocuments

end Declutter.Yaml
