import Declutter.Span
/-!
Concrete syntax trees of Python files. A node names its form, the part it plays in its parent, its
span and its children in the order of the text. Words and punctuation that carry no structure are
left out.
-/

set_option autoImplicit false
set_option relaxedAutoImplicit false

namespace Declutter.Python

/-- The statements that hold no block. -/
inductive SimpleForm where
  | importNames | importFrom | importFuture | assertion | returning | deletion | raising
  | pass | breaking | continuing | globals | nonlocals | typeAlias | printing | execution
deriving DecidableEq, Repr

/-- The name of the form of a statement. -/
def SimpleForm.name : SimpleForm → Text
  | importNames => "import_statement"
  | importFrom => "import_from_statement"
  | importFuture => "future_import_statement"
  | assertion => "assert_statement"
  | returning => "return_statement"
  | deletion => "delete_statement"
  | raising => "raise_statement"
  | pass => "pass_statement"
  | breaking => "break_statement"
  | continuing => "continue_statement"
  | globals => "global_statement"
  | nonlocals => "nonlocal_statement"
  | typeAlias => "type_alias_statement"
  | printing => "print_statement"
  | execution => "exec_statement"

/-- The forms of nodes. -/
inductive Kind where
  | module | block
  | expressionStatement
  | simple (form : SimpleForm)
  | ifStatement | forStatement | whileStatement | tryStatement | withStatement | matchStatement
  | functionDefinition | classDefinition | decoratedDefinition | decorator
  | elifClause | elseClause | exceptClause | finallyClause | caseClause
  | call | identifier | attribute | parenthesized
  | subscript | starred | tuple | list | dictionary | collection | comprehension
  | string | constant | operation | lambda | named | aliased | assignment | yielding
  | argumentList | keywordArgument | pair | parameters | typeNote | importList | pattern
  | comment | lineContinuation
  /-- A stretch that fits no form. -/
  | error
  /-- A place at which a word or a punctuation mark has to be supplied. -/
  | missing (mark : Text)
deriving DecidableEq, Repr

namespace Kind

/-- Comments and line continuations may stand anywhere and are no part of the code. -/
def isExtra : Kind → Bool
  | comment | lineContinuation => true
  | _ => false

/-- Statement forms of old that are read but not accepted. -/
def isObsolete : Kind → Bool
  | simple .printing | simple .execution => true
  | _ => false

end Kind

/-- The parts that a node can play in its parent. -/
inductive Label where
  | body | consequence | name | function | arguments | object | field | definition
deriving DecidableEq, Repr

/-- A node of a concrete syntax tree. -/
structure Node where
  kind : Kind
  label : Option Label
  span : Span
  children : List Node

namespace Node

instance : Inhabited Node := ⟨⟨.error, none, default, []⟩⟩

/-- The node in the given part. -/
def as (label : Label) (n : Node) : Node := { n with label := some label }

/-- The children that are code. -/
def code (n : Node) : List Node := n.children.filter (!·.kind.isExtra)

end Node

end Declutter.Python
