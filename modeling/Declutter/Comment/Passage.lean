import Declutter.Comment.Lexeme
import Declutter.Span
/-!
The passages of a text that are not code: its comments and string literals. A docstring is the whole
of the first statement of the module or of a `def` or `class` body; logical lines stand in for
statements, so that the answer is defined for any text.
-/

set_option autoImplicit false
set_option relaxedAutoImplicit false

namespace Declutter

/-- The kinds of passages. -/
inductive PassageKind where
  | comment | literal | docstring
deriving DecidableEq, Repr

/-- A comment or a string literal, at its span. -/
structure Passage where
  kind : PassageKind
  span : Span
deriving DecidableEq, Repr

namespace Passage

/-- What has been seen of a logical line. -/
structure LogicalLine where
  /-- The number of words, literals and symbols. -/
  size : Nat := 0
  /-- The words among the first two of them. -/
  words : List Text := []
  /-- Whether the last of them is a colon. -/
  afterColon : Bool := false
  /-- Whether the colon that ends a header has been seen. -/
  headerClosed : Bool := false
deriving DecidableEq, Repr

namespace LogicalLine

/-- Whether the line starts like the header of a `def`, an `async def` or a `class`. -/
def opensDefinition (l : LogicalLine) : Bool :=
  match l.words with
  | [] => false
  | [first] => first == "def" || first == "class"
  | first :: second :: _ =>
    first == "def" || first == "class" || (first == "async" && second == "def")

def literal (l : LogicalLine) : LogicalLine := { l with size := l.size + 1, afterColon := false }

def word (w : Text) (l : LogicalLine) : LogicalLine :=
  { l with
    size := l.size + 1
    words := if l.size < 2 then l.words ++ [w] else l.words
    afterColon := false }

/-- The line after a symbol at the given depth of brackets. -/
def symbol (u : CodeUnit) (depth : Nat) (l : LogicalLine) : LogicalLine :=
  { l with
    size := l.size + 1
    afterColon := u == ':'
    headerClosed := l.headerClosed || (u == ':' && depth == 0 && l.opensDefinition) }

end LogicalLine

/-- What is known between two lexemes. -/
structure State where
  depth : Nat := 0
  /-- Whether a literal that starts the logical line opens a body. -/
  opensBody : Bool := true
  line : LogicalLine := {}
deriving DecidableEq, Repr

def isOpener (u : CodeUnit) : Bool := u == '(' || u == '[' || u == '{'

def isCloser (u : CodeUnit) : Bool := u == ')' || u == ']' || u == '}'

/-- The depth of brackets after a symbol; a closing bracket too many changes nothing. -/
def depthAfter (u : CodeUnit) (depth : Nat) : Nat :=
  if isOpener u then depth + 1 else if isCloser u then depth - 1 else depth

namespace State

/-- Whether a literal at this point is in the place of a docstring. -/
def opensDocstring (s : State) : Bool :=
  if s.line.size = 0 then s.opensBody else s.line.headerClosed && s.line.afterColon

/-- The state after the end of a logical line. An empty line leaves it open whether a body comes. -/
def endLine (s : State) : State :=
  { s with
    opensBody := if s.line.size = 0 then s.opensBody
      else s.line.opensDefinition && s.line.afterColon
    line := {} }

/-- The state after a lexeme. -/
def step (s : State) (x : Lexeme) : State :=
  match x.kind with
  | .comment | .blank | .continuation => s
  | .newline => if s.depth = 0 then s.endLine else s
  | .literal => { s with line := s.line.literal }
  | .word => { s with line := s.line.word x.text }
  | .symbol u =>
    let depth := depthAfter u s.depth
    { s with depth, line := s.line.symbol u depth }

end State

/-- Whether a statement ends before any other code follows, where brackets are open to the given
depth. -/
def endsStatement (depth : Nat) : List Lexeme → Bool
  | [] => true
  | x :: rest =>
    match x.kind with
    | .comment | .blank | .continuation => endsStatement depth rest
    | .newline => depth == 0 || endsStatement depth rest
    | .symbol u => u == ';' && depth == 0
    | .literal | .word => false

/-- The kind of passage that a lexeme is, if it is one. -/
def kindOf (s : State) (x : Lexeme) (rest : List Lexeme) : Option PassageKind :=
  match x.kind with
  | .comment => some .comment
  | .literal =>
    some (if s.opensDocstring && endsStatement s.depth rest then .docstring else .literal)
  | _ => none

/-- The passages among the lexemes that start at `offset`. -/
def ofLexemes (s : State) (offset : Nat) : List Lexeme → List Passage
  | [] => []
  | x :: rest =>
    let stop := offset + x.text.length
    ((kindOf s x rest).map fun kind ↦ ⟨kind, offset, stop⟩).toList
      ++ ofLexemes (s.step x) stop rest

end Passage

/-- Every comment, string literal and docstring of a text, in order. -/
def Text.passages (t : Text) : List Passage := Passage.ofLexemes {} 0 (Lexeme.split t)

end Declutter
