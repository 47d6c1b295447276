import Declutter.Python.CasePattern
/-!
The rules for statements, blocks and whole files. A statement that fits no rule becomes an error
node that takes the rest of the text, so that every text has a tree.
-/

set_option autoImplicit false
set_option relaxedAutoImplicit false

namespace Declutter.Python.Grammar

open Parse Cursor

variable (read : Reader)

/-! ### Simple statements -/

/-- One name or more. -/
def nameList : Parse (List Node) := do
  let (names, _) ← commaList { newline := true } {} (fun _ _ ↦ false)
    (do let _ ← look {}; identifier)
  return names

/-- One expression or more, with no comma at the end. -/
def strictExpressionList : Parse (List Node) := do
  let (values, _) ← commaList { newline := true } { string := true } (fun _ _ ↦ false)
    (read (.expression .statement))
  return values

/-- A module to import, with another name for it or not. -/
def importItem (f : Follow) : Parse Node := do
  let _ ← look {}
  let name ← dottedName f
  let ahead ← look f.expected
  if ahead = .code && (← get).atWord "as" then
    takeWord
    let _ ← look {}
    let other ← identifier
    node .aliased name.span.start [name, other]
  else return name

/-- The names to import, with an optional comma at the end. -/
def importItems (f : Follow) : Parse (List Node) := do
  let (items, _) ← commaList f.expected f.expected (fun ahead c ↦ ahead != .code || c.word.isEmpty)
    (importItem f)
  return items

/-- The names after the word `import`, in parentheses or not. -/
def importedNames : Parse (List Node) := do
  let _ ← look {}
  if (← get).atMark "(" then
    take 1
    let items ← importItems .bracketed
    let _ ← look { closer := true }
    mark ")"
    return items
  else importItems .statement

/-- The module after the word `from`: dots and a dotted name, of which one may be missing. -/
def importSource : Parse Unit := do
  let dots ← repeating false fun _ ↦ do
    let _ ← look {}
    if (← get).atUnit '.' then
      take 1
      return some true
    else return none
  let c ← get
  if dots && c.atWord "import" then return ()
  else
    let _ ← dottedName .header

/-- A statement that starts with the word `from`. -/
def importFrom (start : Nat) : Parse Node := do
  takeWord
  let _ ← look {}
  let future := (← get).atWord "__future__"
  importSource
  let _ ← look {}
  keyword "import"
  let _ ← look {}
  if !future && (← get).atMark "*" then
    take 1
    node (.simple .importFrom) start []
  else
    let items ← importedNames
    node (.simple (if future then .importFuture else .importFrom)) start items

/-- A `raise`, with an exception and a cause or without. -/
def raising (start : Nat) : Parse Node := do
  takeWord
  let f : Follow := .statement
  let ahead ← look f.afterComma
  let c ← get
  let values ←
    if startsOperand ahead c && !c.atWord "from" then do
      pure (← expressionList read f ["from"]).1
    else pure []
  let ahead ← look f.expected
  if ahead = .code && (← get).atWord "from" then
    takeWord
    let cause ← read (.expression f)
    node (.simple .raising) start (values ++ [cause])
  else node (.simple .raising) start values

/-- The alias of a type. -/
def typeAlias (start : Nat) : Parse Node := do
  keyword "type"
  let name ← constrainedType read .header
  let _ ← look {}
  mark "="
  let value ← constrainedType read .statement
  node (.simple .typeAlias) start [name, value]

/-- The marks of augmented assignments. -/
def augmentedMarks : List Text :=
  ["+=", "-=", "*=", "/=", "@=", "//=", "%=", "**=", ">>=", "<<=", "&=", "^=", "|="]

/-- A value to assign: expressions, or a `yield`. -/
def assignedValue : Parse (List Node) := do
  let ahead ← look { string := true }
  if ahead = .code && (← get).atWord "yield" then return [← yielding read .statement]
  else return (← expressionList read .statement).1

/-- The next part of an assignment after the given one: an equals sign with a value, an augmented
assignment, or a type with or without a value. -/
def assignmentPart (left : List Node) : Parse (Option (List Node)) := do
  match ← look { newline := true } with
  | .code =>
    let c ← get
    if c.atMark "=" || c.atAnyMark augmentedMarks then
      if !Node.areTargets left then fail
      take c.mark.length
      return some (← assignedValue read)
    else if c.atUnit ':' then
      if !Node.areTargets left then fail
      take 1
      let t ← constrainedType read .statement
      let ahead ← look { newline := true }
      if ahead = .code && (← get).atMark "=" then
        take 1
        return some (← assignedValue read)
      else return some [⟨.typeNote, none, t.span, [t]⟩]
    else return none
  | _ => return none

/-- An expression statement: expressions, a `yield`, or an assignment. -/
def expressionStatement (start : Nat) : Parse Node := do
  let ahead ← look { string := true }
  if ahead = .code && (← get).atWord "yield" then
    let value ← yielding read .statement
    node .expressionStatement start [value]
  else
    let (values, _) ← expressionList read .statement
    let first ← assignmentPart read values
    match first with
    | none => node .expressionStatement start values
    | some part =>
      let _ ← repeating part (assignmentPart read)
      let assignment ← node .assignment start values
      node .expressionStatement start [assignment]

/-- A `print` that is a statement. -/
def printing (start : Nat) : Parse Node := do
  keyword "print"
  let f : Follow := .statement
  let ahead ← look f.afterComma
  if ahead = .code && (← get).atMark ">>" then
    take 2
    let stream ← read (.expression f)
    let ahead ← look f.expected
    if ahead = .code && (← get).atMark "," then
      take 1
      let ahead ← look f.afterComma
      let values ← if startsOperand ahead (← get) then do pure (← expressionList read f).1
        else pure []
      node (.simple .printing) start (stream :: values)
    else node (.simple .printing) start [stream]
  else
    let (values, _) ← expressionList read f
    node (.simple .printing) start values

/-- An `exec` that is a statement. -/
def execution (start : Nat) : Parse Node := do
  keyword "exec"
  let f : Follow := .statement
  let code ← match ← look f.afterComma with
    | .string => stringLiteral read
    | .code => identifier
    | _ => fail
  let ahead ← look f.expected
  if ahead = .code && (← get).atWord "in" then
    takeWord
    let scopes ← strictExpressionList read
    node (.simple .execution) start (code :: scopes)
  else node (.simple .execution) start [code]

/-- Reads by `p` what has to be a whole statement. -/
def wholeStatement (p : Parse Node) : Parse Node := do
  let n ← p
  match ← look { newline := true } with
  | .newline => return n
  | .code => if (← get).atMark ";" then return n else fail
  | _ => fail

/-- A statement that holds no block. -/
def simpleStatement : Parse Node := do
  let ahead ← look { string := true }
  let start ← offset
  let c ← get
  let plain := expressionStatement read start
  if ahead != .code then plain
  else if c.atWord "import" then
    takeWord
    let items ← importItems .statement
    node (.simple .importNames) start items
  else if c.atWord "from" then importFrom start
  else if c.atWord "assert" then
    takeWord
    let values ← strictExpressionList read
    node (.simple .assertion) start values
  else if c.atWord "return" then
    takeWord
    let ahead ← look Follow.statement.afterComma
    let values ←
      if startsOperand ahead (← get) then do pure (← expressionList read .statement).1 else pure []
    node (.simple .returning) start values
  else if c.atWord "del" then
    takeWord
    let (values, _) ← expressionList read .statement
    node (.simple .deletion) start values
  else if c.atWord "raise" then raising read start
  else if c.atWord "pass" then
    takeWord
    node (.simple .pass) start []
  else if c.atWord "break" then
    takeWord
    node (.simple .breaking) start []
  else if c.atWord "continue" then
    takeWord
    node (.simple .continuing) start []
  else if c.atWord "global" then
    takeWord
    let names ← nameList
    node (.simple .globals) start names
  else if c.atWord "nonlocal" then
    takeWord
    let names ← nameList
    node (.simple .nonlocals) start names
  else if c.atWord "print" then
    let chevron : Bool := ((c.skip 5).rest.dropWhile isGap).take 2 == (">>" : Text)
      && ((c.skip 5).rest.dropWhile isGap).take 3 != (">>=" : Text)
    if chevron then printing read start
    else orElse (wholeStatement plain) (printing read start)
  else if c.atWord "exec" then orElse (wholeStatement plain) (execution read start)
  else if c.atWord "type" then orElse (wholeStatement (typeAlias read start)) plain
  else plain

/-- Simple statements with semicolons between them, up to the end of the line. -/
def simpleStatements : Parse (List Node) := do
  let first ← simpleStatement read
  let (statements, _) ← repeating ([first], false) fun (statements, ended) ↦ do
    if ended then return none
    match ← look { newline := true } with
    | .newline => return some (statements, true)
    | .code =>
      if (← get).atMark ";" then
        take 1
        match ← look { newline := true, string := true } with
        | .newline => return some (statements, true)
        | _ => return some (statements ++ [← simpleStatement read], false)
      else fail
    | _ => fail
  modify fun c ↦ { c with lastEnd := c.offset }
  return statements

/-! ### Blocks -/

/-- Opens a block at a column. -/
def openBlock (column : Nat) : Parse Unit :=
  modify fun c ↦ { c with columns := column :: c.columns, lastEnd := c.offset }

/-- Closes the innermost block. -/
def closeBlock : Parse Unit :=
  modify fun c ↦ { c with columns := c.columns.tail, lastEnd := c.offset }

/-- The rest of the text as a stretch that fits no rule, from the offset at which reading failed. -/
def errorNode (i : Nat) : Parse Node := do
  modify Cursor.toEnd
  node .error i []

/-- The items of a block up to its end. What cannot be read becomes an error node. -/
def blockItems (e : Expected) (item : Parse (List Node)) : Parse (List Node) := do
  let (items, _) ← repeating ([], false) fun (items, ended) ↦ do
    if ended then return none
    let step : Parse (List Node × Bool) := do
      match ← look e with
      | .dedent => return (items, true)
      | .finish => return (items, true)
      | _ => return (items ++ (← item), false)
    let c ← get
    match step.run c with
    | .ok (r, c') => do
      set c'
      return some r
    | .error i => return some (items ++ [← errorNode i], false)
  closeBlock
  return items

/-- The words that start a compound statement wherever one may stand. -/
def compoundWords : List Text := ["if", "for", "while", "try", "with", "def", "class"]

/-- Whether a compound statement starts at the cursor. The words `async` and `match` start one only
before certain tokens; else they are names. -/
def atCompound : Parse Bool := do
  let c ← get
  if c.atMark "@" || c.atAnyWord compoundWords then return true
  else if c.atWord "async" || c.atWord "match" then
    takeWord
    let ahead ← look { newline := true, string := true }
    let c' ← get
    set c
    if c.atWord "async" then return ahead = .code && c'.atAnyWord ["for", "with", "def"]
    else return startsOperand ahead c' && !c'.atAnyWord infixWords
  else return false

/-- A compound statement, or a line of simple statements. -/
def statementLine : Parse (List Node) := do
  if ← atCompound then return [← read .compound] else simpleStatements read

/-- The block of a header, after its colon: statements on the same line, or an indented block. A
block with nothing in it is empty and stands where the colon's line ends. -/
def suite : Parse Node := do
  let _ ← look {}
  unit ':'
  match ← look { indent := true, newline := true, string := true } with
  | .indent column => do
    openBlock column
    let start ← offset
    let items ← blockItems { dedent := true, string := true } (statementLine read)
    node .block ((items.head?.map (·.span.start)).getD start) items
  | .newline => do
    let start ← offset
    modify fun c ↦ { c with lastEnd := c.offset }
    node .block start []
  | _ => do
    let start ← offset
    let items ← simpleStatements read
    node .block start items

/-! ### Compound statements -/

/-- The expected tokens after a clause of a compound statement. -/
def afterClause : Expected := { dedent := true, string := true }

/-- Whether the given keyword comes next, after a clause. -/
def atClause (e : Expected) (w : Text) : Parse Bool := do
  match ← look e with
  | .code => return (← get).atWord w
  | _ => return false

/-- An `else` with its block, if one follows. -/
def elseClause (e : Expected) : Parse (List Node) := do
  if ← atClause e "else" then
    let start ← offset
    takeWord
    let body ← suite read
    return [← node .elseClause start [body.as .body]]
  else return []

/-- A `finally` with its block. -/
def finallyClause : Parse Node := do
  let start ← offset
  keyword "finally"
  let body ← suite read
  node .finallyClause start [body]

def ifStatement : Parse Node := do
  let start ← offset
  keyword "if"
  let condition ← read (.expression .header)
  let body ← suite read
  let elifs ← repeating [] fun clauses ↦ do
    if ← atClause afterClause "elif" then
      let start ← offset
      takeWord
      let condition ← read (.expression .header)
      let body ← suite read
      return some (clauses ++ [← node .elifClause start [condition, body.as .consequence]])
    else return none
  let others ← elseClause read afterClause
  node .ifStatement start (condition :: body.as .consequence :: elifs ++ others)

def whileStatement : Parse Node := do
  let start ← offset
  keyword "while"
  let condition ← read (.expression .header)
  let body ← suite read
  let others ← elseClause read afterClause
  node .whileStatement start (condition :: body.as .body :: others)

def forStatement (start : Nat) : Parse Node := do
  keyword "for"
  let targets ← targetList read
  let _ ← look {}
  keyword "in"
  let (values, _) ← expressionList read .header
  let body ← suite read
  let others ← elseClause read afterClause
  node .forStatement start (targets ++ values ++ body.as .body :: others)

def withStatement (start : Nat) : Parse Node := do
  keyword "with"
  let (items, _) ← expressionList read .header
  let body ← suite read
  node .withStatement start (items ++ [body.as .body])

/-- A handler: with an expression and a name for the exception, or without. A starred handler has to
have an expression. -/
def exceptClause (grouped : Bool) : Parse Node := do
  let start ← offset
  take (if grouped then 7 else 6)
  let ahead ← look { string := true }
  if !grouped && ahead = .code && (← get).atUnit ':' then
    let body ← suite read
    node .exceptClause start [body]
  else
    let value ← read (.expression .header)
    let _ ← look {}
    let names ←
      if !grouped && (← get).atMark "," then do
        take 1
        pure [← read (.expression .header)]
      else pure []
    let body ← suite read
    node .exceptClause start (value :: names ++ [body])

def tryStatement : Parse Node := do
  let start ← offset
  keyword "try"
  let body ← suite read
  let _ ← look { handler := true }
  let c ← get
  if c.atWord "finally" then
    let clause ← finallyClause read
    node .tryStatement start [body.as .body, clause]
  else
    let grouped := ("except*" : Text).isPrefixOf c.rest
    let first ← if c.atWord "except" then exceptClause read grouped else fail
    let e : Expected := { afterClause with handler := true }
    let handlers ← repeating [first] fun clauses ↦ do
      if ← atClause e "except" then
        if ("except*" : Text).isPrefixOf (← get).rest != grouped then fail
        else return some (clauses ++ [← exceptClause read grouped])
      else return none
    let others ← elseClause read e
    let cleanup ← if ← atClause afterClause "finally" then do pure [← finallyClause read]
      else pure []
    node .tryStatement start (body.as .body :: handlers ++ others ++ cleanup)

/-- A `case` with its patterns, its guard and its block. -/
def caseClause : Parse Node := do
  let start ← offset
  keyword "case"
  let (patterns, _) ← commaList {} { string := true }
    (fun ahead c ↦ ahead = .code && (c.atUnit ':' || c.atWord "if")) (read (.casePattern .header))
  let _ ← look {}
  let guards ←
    if (← get).atWord "if" then do
      takeWord
      pure [← read (.expression .header)]
    else pure []
  let body ← suite read
  node .caseClause start (patterns ++ guards ++ [body.as .consequence])

def matchStatement : Parse Node := do
  let start ← offset
  keyword "match"
  let (subjects, _) ← expressionList read .header
  let _ ← look {}
  unit ':'
  match ← look { indent := true, newline := true } with
  | .indent column => do
    let blockStart ← offset
    openBlock column
    let cases ← blockItems { dedent := true } (do return [← caseClause read])
    let body ← node .block blockStart cases
    node .matchStatement start (subjects ++ [body.as .body])
  | .newline => do
    let blockStart ← offset
    modify fun c ↦ { c with lastEnd := c.offset }
    let body ← node .block blockStart []
    node .matchStatement start (subjects ++ [body.as .body])
  | _ => fail

/-- Types as parameters of a definition, in brackets. -/
def typeParameters : Parse (List Node) := do
  let _ ← look {}
  if (← get).atMark "[" then
    take 1
    let (types, _) ← commaList { closer := true } { closer := true, string := true }
      (fun ahead c ↦ ahead = .code && c.atMark "]") (constrainedType read .bracketed)
    let _ ← look { closer := true }
    mark "]"
    return types
  else return []

def functionDefinition (start : Nat) : Parse Node := do
  keyword "def"
  let _ ← look {}
  let name ← identifier
  let types ← typeParameters read
  let _ ← look {}
  let params ← parameters read
  let _ ← look {}
  let result ←
    if (← get).atMark "->" then do
      take 2
      pure [← read (.type .header)]
    else pure []
  let body ← suite read
  node .functionDefinition start (name.as .name :: types ++ params :: result ++ [body.as .body])

def classDefinition : Parse Node := do
  let start ← offset
  keyword "class"
  let _ ← look {}
  let name ← identifier
  let types ← typeParameters read
  let _ ← look {}
  let bases ← if (← get).atMark "(" then do pure [← arguments read] else pure []
  let body ← suite read
  node .classDefinition start (name.as .name :: types ++ bases ++ [body.as .body])

/-- A decorator, up to the end of its line. -/
def decorator : Parse Node := do
  let start ← offset
  mark "@"
  let value ← read (.expression .statement)
  match ← look { newline := true } with
  | .newline => do
    modify fun c ↦ { c with lastEnd := c.offset }
    node .decorator start [value]
  | _ => fail

/-- A function or a class with decorators before it. -/
def decoratedDefinition : Parse Node := do
  let start ← offset
  let first ← decorator read
  let decorators ← repeating [first] fun decorators ↦ do
    let _ ← look {}
    if (← get).atMark "@" then return some (decorators ++ [← decorator read]) else return none
  let definitionStart ← offset
  let c ← get
  let definition ←
    if c.atWord "class" then classDefinition read
    else if c.atWord "async" then do
      takeWord
      let _ ← look {}
      functionDefinition read definitionStart
    else functionDefinition read definitionStart
  node .decoratedDefinition start (decorators ++ [definition.as .definition])

/-- A statement that holds blocks. -/
def compoundStatement : Parse Node := do
  let start ← offset
  let c ← get
  if c.atWord "if" then ifStatement read
  else if c.atWord "while" then whileStatement read
  else if c.atWord "for" then forStatement read start
  else if c.atWord "try" then tryStatement read
  else if c.atWord "with" then withStatement read start
  else if c.atWord "def" then functionDefinition read start
  else if c.atWord "class" then classDefinition read
  else if c.atWord "match" then matchStatement read
  else if c.atMark "@" then decoratedDefinition read
  else
    keyword "async"
    let _ ← look {}
    let c ← get
    if c.atWord "for" then forStatement read start
    else if c.atWord "with" then withStatement read start
    else functionDefinition read start

end Declutter.Python.Grammar
