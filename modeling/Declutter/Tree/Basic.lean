import Declutter.Span
/-!
The statement tree of a Python file. It knows only what removing a statement can touch: blocks,
clauses, compound statements, and expression statements down to the name of a called function. Every
node keeps the span that it holds in the source; what was taken out of a block or a construct leaves
its span behind, so that a tree can be written back as edits of the source.
-/

set_option autoImplicit false
set_option relaxedAutoImplicit false

namespace Declutter

/-- An expression, as far as the name of a called function needs it. -/
inductive Expression where
  | call (span : Span) (callee : Expression) (arguments : Span)
  | name (span : Span) (id : Text)
  | field (span : Span) (object : Expression) (label : Text)
  | other (span : Span)
deriving DecidableEq, Repr, Inhabited

namespace Expression

/-- The dotted path that an expression spells: names and their fields alone have one. -/
def path? : Expression → Option (List Text)
  | name _ id => some [id]
  | field _ object label => object.path?.map (· ++ [label])
  | call .. | other _ => none

end Expression

/-- The part that a clause plays in its construct. The `primary` clause is the one that the
construct's own keyword opens; a `match` has only `case` clauses. -/
inductive Role where
  | primary | elif | orElse | handler | cleanup | case
deriving DecidableEq, Repr

/-- The kinds of compound statements. -/
inductive ConstructKind where
  | conditional | forLoop | whileLoop | attempt | context | selection
  | function (name : Text)
  | classBody (name : Text)
deriving DecidableEq, Repr

/-- Whether the construct binds a name by a `def` or a `class`. -/
def ConstructKind.bindsName : ConstructKind → Bool
  | .function _ | .classBody _ => true
  | _ => false

mutual

/-- A statement of a block. -/
inductive Statement where
  | expression (span : Span) (value : Expression)
  | compound (construct : Construct)
  /-- A `pass` that stands for a removed statement, at that statement's span. -/
  | placeholder (span : Span)
  /-- A statement that is never looked into; `type` names its form. -/
  | inert (span : Span) (type : Text)

/-- A compound statement: its clauses, and the spans of the clauses dropped from it. -/
structure Construct where
  kind : ConstructKind
  span : Span
  clauses : List Clause
  dropped : List Span

/-- A header and its block. -/
structure Clause where
  role : Role
  span : Span
  body : Block

/-- A list of statements, with the spans of the statements excised from it. A block is `emptied` if
removal has left it without a statement. -/
structure Block where
  span : Span
  statements : List Statement
  excised : List Span
  emptied : Bool

end

instance : Inhabited Statement := ⟨.placeholder default⟩

instance : Inhabited Construct := ⟨⟨.conditional, default, [], []⟩⟩

instance : Inhabited Block := ⟨⟨default, [], [], false⟩⟩

instance : Inhabited Clause := ⟨⟨.primary, default, default⟩⟩

def Statement.span : Statement → Span
  | .expression s _ | .placeholder s | .inert s _ => s
  | .compound c => c.span

/-- A source text with the block of its statements. -/
structure Tree where
  source : Text
  body : Block

end Declutter
