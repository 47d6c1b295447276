import Declutter.Text.Basic
/-!
Line structure. Where a statement may end, a line ending ends it; where a block may begin or end,
the column of the next line of code decides. Comments and blank lines have no column. What a line
ending means depends on what may come next, so the decision takes that as an argument.
-/

set_option autoImplicit false
set_option relaxedAutoImplicit false

namespace Declutter.Python

/-- What may come next at a point of the grammar, as far as it bears on line structure. -/
structure Expected where
  /-- The end of a statement. -/
  newline : Bool := false
  /-- The beginning of a block. -/
  indent : Bool := false
  /-- The end of a block. -/
  dedent : Bool := false
  /-- A closing bracket. -/
  closer : Bool := false
  /-- A string literal. -/
  string : Bool := false
  /-- An exception handler. -/
  handler : Bool := false
deriving DecidableEq, Repr

/-- What the line structure says at a point of the text. -/
inductive Layout where
  | newline
  | indent (column : Nat)
  | dedent
  /-- A string literal starts at the next unit that is not blank. -/
  | string
  /-- The line structure says nothing. -/
  | plain
deriving DecidableEq, Repr

namespace Layout

/-- What has been read of the blanks before the next token. -/
structure Gap where
  /-- Whether a line has ended. -/
  lineEnded : Bool := false
  /-- The column reached on the current line, a tab counting eight. -/
  column : Nat := 0
  /-- The column of the first comment. -/
  commentColumn : Option Nat := none
  /-- Whether a comment is being passed over. -/
  inComment : Bool := false
deriving DecidableEq, Repr

/-- Reads the blanks, line endings, continuations and, if `heedComments`, comment lines in front of
the next token. The answer is `none` where no token of the line structure can be: at a comment after
code, or at a backslash that does not end its line. -/
def skip (heedComments : Bool) (g : Gap) : Text → Option (Gap × Text)
  | [] => some ({ g with lineEnded := true, column := 0 }, [])
  | 92 :: 13 :: 10 :: rest =>
    if g.inComment then skip heedComments { g with inComment := false, column := 0 } rest
    else skip heedComments g rest
  | 92 :: 10 :: rest =>
    if g.inComment then skip heedComments { g with inComment := false, column := 0 } rest
    else skip heedComments g rest
  | u :: rest =>
    if g.inComment then
      if u == 10 || u == 0 then skip heedComments { g with inComment := false, column := 0 } rest
      else skip heedComments g rest
    else if u == '\n' then skip heedComments { g with lineEnded := true, column := 0 } rest
    else if u == ' ' then skip heedComments { g with column := g.column + 1 } rest
    else if u == '\r' || u == 12 then skip heedComments { g with column := 0 } rest
    else if u == '\t' then skip heedComments { g with column := g.column + 8 } rest
    else if u == '#' && heedComments then
      if g.lineEnded then
        skip heedComments
          { g with inComment := true, commentColumn := some (g.commentColumn.getD g.column) } rest
      else none
    else if u == '\\' then
      match rest with
      | [] | [13] => some ({ g with lineEnded := true, column := 0 }, [])
      | _ => none
    else some (g, u :: rest)

/-- A unit that opens and closes string literals; the backquote is one of them. -/
def isQuote (u : CodeUnit) : Bool := u == '"' || u == '\'' || u == 96

/-- A letter that may stand before the opening quote. -/
def isStringPrefix (u : CodeUnit) : Bool :=
  u == 'f' || u == 'F' || u == 'r' || u == 'R' || u == 'b' || u == 'B' || u == 'u' || u == 'U'

/-- Whether a string literal starts the text. -/
def startsString (t : Text) : Bool := (t.dropWhile isStringPrefix).head?.any isQuote

/-- What the line structure says, given what may come next, the columns of the open blocks (the
innermost first) and whether a format string is open. The end of a block is reported also where it
does not fit, so that a line to the left of its block cannot go on with a statement of the block. -/
def read (e : Expected) (columns : List Nat) (inFormat : Bool) (t : Text) : Layout :=
  match skip (e.indent || e.dedent || e.newline || e.handler) {} t with
  | none => .plain
  | some (g, rest) =>
    let current := columns.headD 0
    if g.lineEnded && e.indent && current < g.column then .indent g.column
    else if g.lineEnded && g.column < current && !inFormat && g.commentColumn.all (· < current)
        && (e.dedent
          || (!e.newline && !e.closer && !(e.string && rest.head?.any isQuote))) then .dedent
    else if g.lineEnded && e.newline then .newline
    else if g.commentColumn.isNone && e.string && startsString rest then .string
    else .plain

end Layout

end Declutter.Python
