import Declutter.Python.Cursor
/-!
The symbols of the grammar at which it refers back to itself. Each rule of the grammar is written
over readers for these symbols, so that no rule is recursive and the knot is tied once.
-/

set_option autoImplicit false
set_option relaxedAutoImplicit false

namespace Declutter.Python

/-- What may follow an expression. -/
structure Follow where
  /-- The end of a statement. -/
  newline : Bool := false
  /-- A closing bracket. -/
  closer : Bool := false
  /-- Whether an `if` after the expression makes it conditional. -/
  ternary : Bool := true
deriving DecidableEq, Repr

namespace Follow

/-- What may come after the expression. -/
def expected (f : Follow) : Expected := { newline := f.newline, closer := f.closer }

/-- What may come after a comma that follows the expression. -/
def afterComma (f : Follow) : Expected :=
  { newline := f.newline, closer := f.closer, string := true }

/-- Inside brackets a closing bracket may follow. -/
def bracketed : Follow := { closer := true }

/-- In a statement its end may follow. -/
def statement : Follow := { newline := true }

/-- In a header neither may follow. -/
def header : Follow := {}

end Follow

/-- The recursive symbols of the grammar. -/
inductive Symbol where
  | expression (follow : Follow)
  /-- An operand of a unary or binary operator. -/
  | operand (follow : Follow)
  /-- A replacement field of a format string, from its opening brace on. -/
  | hole
  | type (follow : Follow)
  | casePattern (follow : Follow)
  | simplePattern (follow : Follow)
  /-- A statement that holds blocks. -/
  | compound
deriving DecidableEq, Repr

/-- A reader for each recursive symbol. -/
abbrev Reader := Symbol → Parse Node

end Declutter.Python
