import Declutter.Yaml.Fault
/-!
A place in the text of a document, and the ways to move on over blanks, comments and line breaks.
-/

set_option autoImplicit false
set_option relaxedAutoImplicit false

namespace Declutter.Yaml

/-- Whether a unit ends a line. -/
def isBreak (u : CodeUnit) : Bool := u == 10 || u == 13

/-- Whether a unit is a blank or ends a line. -/
def isSpace (u : CodeUnit) : Bool := u.isPadding || isBreak u

/-- Whether a unit separates or encloses the items of a flow collection. -/
def isFlowMark (u : CodeUnit) : Bool :=
  u == ',' || u == '[' || u == ']' || u == 123 || u == 125

/-- A place in a document. -/
structure Cursor where
  /-- What is still to read. -/
  rest : Text
  /-- The unit right before the place. -/
  last : Option CodeUnit := none
  /-- The number of units before the place on its line. -/
  column : Nat := 0
  /-- The number of lines before the place. -/
  line : Nat := 0
  /-- The indentation of the line, as far as it has been measured. -/
  indent : Nat := 0
  /-- Whether a tab was among the blanks passed over on the line. -/
  tabbed : Bool := false
deriving Repr

namespace Cursor

/-- The next unit. -/
def peek (c : Cursor) : Option CodeUnit := c.rest.head?

/-- Whether the unit after the next satisfies `p`. -/
def nextIs (p : CodeUnit → Bool) (c : Cursor) : Bool := (c.rest.drop 1).head?.any p

/-- Whether the next unit satisfies `p`. -/
def holds (p : CodeUnit → Bool) (c : Cursor) : Bool := c.peek.any p

/-- The place `n` units further on, on the same line. -/
def advance (n : Nat) (c : Cursor) : Cursor :=
  { c with
    rest := c.rest.drop n
    last := (c.rest.take n).getLast?.or c.last
    column := c.column + n }

/-- The units from the place on that satisfy `p`. -/
def span (p : CodeUnit → Bool) (c : Cursor) : Text := c.rest.takeWhile p

/-- The place after the units that satisfy `p`. -/
def skipWhile (p : CodeUnit → Bool) (c : Cursor) : Cursor := c.advance (c.span p).length

/-- The place after a line break, if one is there. -/
def afterBreak? (c : Cursor) : Option Cursor :=
  let next (n : Nat) : Cursor :=
    { c with
      rest := c.rest.drop n
      last := (c.rest.take n).getLast?
      column := 0
      line := c.line + 1
      tabbed := false }
  match c.rest with
  | 13 :: 10 :: _ => some (next 2)
  | u :: _ => if isBreak u then some (next 1) else none
  | [] => none

/-- The place after the blanks, where a tab among them is noticed. -/
def skipBlanks (c : Cursor) : Cursor :=
  let blanks := c.span CodeUnit.isPadding
  { c.advance blanks.length with tabbed := c.tabbed || blanks.contains 9 }

/-- The place at the end of the line. -/
def skipLine (c : Cursor) : Cursor := c.skipWhile (!isBreak ·)

/-- The place after the spaces that indent a line, whose number becomes the indentation. -/
def measure (c : Cursor) : Cursor :=
  let spaces := (c.span (fun (u : CodeUnit) ↦ u == ' ')).length
  { c.advance spaces with indent := spaces }

/-- Passes blanks, comments if they are allowed here, and line breaks, and counts the breaks. -/
def separateFrom (comments : Bool) : (bound breaks : Nat) → Cursor → Cursor × Nat
  | 0, breaks, c => (c, breaks)
  | bound + 1, breaks, c =>
    let c := c.skipBlanks
    let c := if comments && c.peek == some 35 then c.skipLine else c
    match c.afterBreak? with
    | some c => separateFrom comments bound (breaks + 1) c.measure
    | none => (c, breaks)

/-- Passes what separates two tokens, and counts the line breaks in it. -/
def separate (comments : Bool) (c : Cursor) : Cursor × Nat :=
  separateFrom comments (c.rest.length + 1) 0 c

/-- Whether three hyphens or three dots that mark the bounds of a document are next. -/
def atMark (c : Cursor) : Bool :=
  match c.rest with
  | a :: b :: d :: rest => (a == '-' || a == '.') && a == b && a == d && rest.head?.all isSpace
  | _ => false

/-- Whether the bounds of a document are marked here, at the start of a line. -/
def atDocumentMark (c : Cursor) : Bool := c.column == 0 && c.atMark

end Cursor

end Declutter.Yaml
