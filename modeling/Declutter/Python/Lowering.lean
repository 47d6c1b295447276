import Declutter.Python.Grammar
import Declutter.Tree.Basic
/-!
From concrete syntax to the statement tree: the check of a tree for syntax errors, and the lowering
of a tree that has none. Where the concrete tree of a text comes from is an argument of what reads
one.
-/

set_option autoImplicit false
set_option relaxedAutoImplicit false

namespace Declutter.Python

/-- What is wrong with a text that is not valid Python. -/
inductive SyntaxProblem where
  | invalid
  | missing (mark : Text)
  | emptyBlock
  | notExpression
deriving DecidableEq, Repr

def SyntaxProblem.message : SyntaxProblem → Text
  | invalid => "Invalid syntax"
  | missing mark => "Missing " ++ mark
  | emptyBlock => "Expected an indented block"
  | notExpression => "Not an expression statement"

/-- A problem and where it is, both counted from one. -/
structure SyntaxFault where
  problem : SyntaxProblem
  line : Nat
  column : Nat
deriving DecidableEq, Repr

namespace SyntaxFault

def message (fault : SyntaxFault) : Text :=
  fault.problem.message ++ " at line " ++ Text.ofNat fault.line ++ ", column " ++
    Text.ofNat fault.column

/-- A problem at an offset of the source. -/
def ofOffset (source : Text) (problem : SyntaxProblem) (i : Nat) : SyntaxFault where
  problem
  line := (source.take i).count 10 + 1
  column := i - source.lineStart i + 1

end SyntaxFault

namespace Node

/-- What is wrong with a node itself. -/
def ownProblem? (n : Node) : Option SyntaxProblem :=
  match n.kind with
  | .error => some .invalid
  | .missing mark => some (.missing mark)
  | .block => if n.code.isEmpty then some .emptyBlock else none
  | kind => if kind.isObsolete then some .invalid else none

mutual

/-- The first problem of a tree in the order of the text, with its offset. -/
def problem? : Node → Option (SyntaxProblem × Nat)
  | ⟨kind, label, span, children⟩ =>
    match ownProblem? ⟨kind, label, span, children⟩ with
    | some problem => some (problem, span.start)
    | none => firstProblem? children

def firstProblem? : List Node → Option (SyntaxProblem × Nat)
  | [] => none
  | n :: rest =>
    match n.problem? with
    | some found => some found
    | none => firstProblem? rest

end

/-- Whether a node plays a part. -/
def plays (label : Label) (n : Node) : Bool := n.label = some label

/-- Which of the children of a clause is its block: the one in the part of a body, else that of a
consequence, else the first one that is a block. -/
def isSuiteOf (children : List Node) (n : Node) : Bool :=
  if children.any (plays .body) then n.plays .body
  else if children.any (plays .consequence) then n.plays .consequence
  else n.kind = .block

/-- The role of a clause that follows the first block of a construct. -/
def clauseRole? (n : Node) : Option Role :=
  match n.kind with
  | .elifClause => some .elif
  | .elseClause => some .orElse
  | .exceptClause => some .handler
  | .finallyClause => some .cleanup
  | _ => none

end Node

/-- The form of a statement that is never looked into. -/
def Kind.statementName : Kind → Text
  | .simple form => form.name
  | .ifStatement => "if_statement"
  | .forStatement => "for_statement"
  | .whileStatement => "while_statement"
  | .tryStatement => "try_statement"
  | .withStatement => "with_statement"
  | .matchStatement => "match_statement"
  | .functionDefinition => "function_definition"
  | .classDefinition => "class_definition"
  | .decoratedDefinition => "decorated_definition"
  | _ => "statement"

namespace Lowering

/-- An expression. Parentheses around it leave no trace. -/
def expression (source : Text) : Node → Expression
  | ⟨.call, _, span, [function, arguments]⟩ =>
    .call (span.trimEnd source) (expression source function) (arguments.span.trimEnd source)
  | ⟨.identifier, _, span, _⟩ => .name (span.trimEnd source) (span.read source)
  | ⟨.attribute, _, span, [object, field]⟩ =>
    .field (span.trimEnd source) (expression source object) (field.span.read source)
  | ⟨.parenthesized, _, _, [inner]⟩ => expression source inner
  | ⟨_, _, span, _⟩ => .other (span.trimEnd source)

/-- The expression of an expression statement. Several expressions, or none, are not a call of
anything. -/
def soleExpression (source : Text) (n : Node) : Expression :=
  match n.code with
  | [value] => expression source value
  | _ => .other (n.span.trimEnd source)

/-- The text of the child in the part of a name. -/
def nameOf (source : Text) (children : List Node) : Text :=
  ((children.find? (·.label = some .name)).map (·.span.read source)).getD []

/-- Where the child in a part ends. -/
def stopOf? (label : Label) (children : List Node) : Option Nat :=
  (children.find? (·.label = some label)).map (·.span.stop)

/-- The kind of construct that a statement form makes, and the part that its first block plays in
it. -/
def construct? (source : Text) (kind : Kind) (children : List Node) :
    Option (ConstructKind × Label) :=
  match kind with
  | .ifStatement => some (.conditional, .consequence)
  | .forStatement => some (.forLoop, .body)
  | .whileStatement => some (.whileLoop, .body)
  | .tryStatement => some (.attempt, .body)
  | .withStatement => some (.context, .body)
  | .functionDefinition => some (.function (nameOf source children), .body)
  | .classDefinition => some (.classBody (nameOf source children), .body)
  | _ => none

/-- The construct of a statement form with the given children, of which the first block and the
clauses after it have been lowered; `outer` is the span of the whole, decorators included. -/
def construct (source : Text) (kind : Kind) (outer : Span) (children : List Node)
    (body : Option Block) (clauses : Option (List Clause)) : Option Statement := do
  let (constructKind, label) ← construct? source kind children
  let stop ← stopOf? label children
  let primary : Clause := ⟨.primary, ({ outer with stop := stop } : Span).trimEnd source, ← body⟩
  return .compound ⟨constructKind, outer.trimEnd source, primary :: (← clauses), []⟩

/-- Whether a node is the first block of a statement form. -/
def isFirstBlock (kind : Kind) (n : Node) : Bool :=
  n.plays (if kind = .ifStatement then .consequence else .body)

mutual

/-- A statement. One that lacks a block it should have is never looked into. -/
def statement (source : Text) : Node → Statement
  | ⟨kind, label, span, children⟩ =>
    let inert := Statement.inert (span.trimEnd source) kind.statementName
    match kind with
    | .expressionStatement =>
      .expression (span.trimEnd source) (soleExpression source ⟨kind, label, span, children⟩)
    | .matchStatement =>
      match if children.any (Node.plays .body) then matchCases source children
        else casesIn source children with
      | some (clause :: rest) => .compound ⟨.selection, span.trimEnd source, clause :: rest, []⟩
      | _ => inert
    | .decoratedDefinition => (definitionIn source span children).getD inert
    | kind =>
      (construct source kind span children (blockIn source (isFirstBlock kind) children)
        (clausesIn source children)).getD inert

/-- The definition under decorators. -/
def definitionIn (source : Text) (outer : Span) : List Node → Option Statement
  | [] => none
  | ⟨kind, label, _, children⟩ :: rest =>
    if label = some .definition then
      if kind = .functionDefinition || kind = .classDefinition then
        construct source kind outer children (blockIn source (isFirstBlock kind) children)
          (clausesIn source children)
      else none
    else definitionIn source outer rest

/-- The block of the first child that satisfies `p`. -/
def blockIn (source : Text) (p : Node → Bool) : List Node → Option Block
  | [] => none
  | n :: rest => if p n then some (block source n) else blockIn source p rest

/-- The clauses among the children; `none` if one lacks its block. -/
def clausesIn (source : Text) : List Node → Option (List Clause)
  | [] => some []
  | ⟨kind, label, span, children⟩ :: rest =>
    match Node.clauseRole? ⟨kind, label, span, children⟩ with
    | none => clausesIn source rest
    | some role =>
      match blockIn source (Node.isSuiteOf children) children, clausesIn source rest with
      | some body, some clauses => some (⟨role, span.trimEnd source, body⟩ :: clauses)
      | _, _ => none

/-- The cases of a `match` that has a block, which are in it. -/
def matchCases (source : Text) : List Node → Option (List Clause)
  | [] => some []
  | ⟨_, label, _, children⟩ :: rest =>
    if label = some .body then casesIn source children else matchCases source rest

/-- The cases among the children; `none` if one lacks its block. -/
def casesIn (source : Text) : List Node → Option (List Clause)
  | [] => some []
  | ⟨kind, _, span, children⟩ :: rest =>
    if kind = .caseClause then
      match blockIn source (Node.isSuiteOf children) children, casesIn source rest with
      | some body, some clauses => some (⟨.case, span.trimEnd source, body⟩ :: clauses)
      | _, _ => none
    else casesIn source rest

/-- A block with its statements, from which nothing has been removed. -/
def block (source : Text) : Node → Block
  | ⟨_, _, span, children⟩ => ⟨span.trimEnd source, statements source children, [], false⟩

def statements (source : Text) : List Node → List Statement
  | [] => []
  | n :: rest =>
    if n.kind.isExtra then statements source rest
    else statement source n :: statements source rest

end

end Lowering

/-- The first syntax fault of a text, if it has one. -/
def check (source : Text) (parse : Text → Node := Python.parse) : Option SyntaxFault :=
  (parse source).problem?.map fun (problem, i) ↦ .ofOffset source problem i

/-- The statement tree of a text, or its first syntax fault. -/
def readTree (source : Text) (parse : Text → Node := Python.parse) : Except SyntaxFault Tree :=
  match check source parse with
  | some fault => .error fault
  | none => .ok ⟨source, Lowering.block source (parse source)⟩

/-- The expression that a text consists of: its first statement has to be an expression
statement. -/
def readExpression (source : Text) (parse : Text → Node := Python.parse) :
    Except SyntaxFault Expression := do
  match (← readTree source parse).body.statements with
  | .expression _ value :: _ => return value
  | _ => .error ⟨.notExpression, 1, 1⟩

end Declutter.Python
