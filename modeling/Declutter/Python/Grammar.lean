import Declutter.Python.Statement
/-!
The grammar as a whole: the rules read one another, and every text has a concrete syntax tree.
-/

set_option autoImplicit false
set_option relaxedAutoImplicit false

namespace Declutter.Python

namespace Grammar

/-- The rule of a symbol, over readers for the symbols in it. -/
def rule (read : Reader) : Symbol → Parse Node
  | .expression f => expressionRule read f
  | .operand f => operandRule read f
  | .hole => holeRule read
  | .type f => typeRule read f
  | .casePattern f => casePatternRule read f
  | .simplePattern f => simplePatternRule read f
  | .compound => compoundStatement read

/-- The readers for symbols that are nested at most `depth` deep. -/
def reader : (depth : Nat) → Reader
  | 0 => fun _ ↦ Parse.fail
  | depth + 1 => rule (reader depth)

/-- More than the depth to which symbols can be nested in a text of a given length: each unit opens
at most one level, which goes through an expression and an operand. -/
def depthBound (length : Nat) : Nat := 4 * length + 8

/-- The statements of a file. -/
def fileItems (read : Reader) : Parse (List Node) :=
  blockItems { dedent := true, string := true } (statementLine read)

end Grammar

/-- The text without a byte order mark at its start, and the length of what was taken away. -/
def afterByteOrderMark : Text → Text × Nat
  | 0xFEFF :: rest => (rest, 1)
  | t => (t, 0)

/-- The concrete syntax tree of a text. It starts at the first unit that is not blank. -/
def parse (source : Text) : Node :=
  let (rest, offset) := afterByteOrderMark source
  let start := source.length - (rest.dropWhile Cursor.isGap).length
  let c : Cursor := { rest, offset, lastEnd := offset }
  match (Grammar.fileItems (Grammar.reader (Grammar.depthBound source.length))).run c with
  | .ok (items, _) => ⟨.module, none, ⟨start, source.length⟩, items⟩
  | .error i => ⟨.module, none, ⟨start, source.length⟩, [⟨.error, none, ⟨i, source.length⟩, []⟩]⟩

end Declutter.Python
