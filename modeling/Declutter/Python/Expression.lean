import Declutter.Python.StringLiteral
/-!
The rules for expressions. Operators keep no structure of their own beyond their operands: what
matters further on is whether an expression is a call, and by which path of names it is called.
-/

set_option autoImplicit false
set_option relaxedAutoImplicit false

namespace Declutter.Python

namespace Cursor

/-- The words that stand for values. -/
def constants : List Text := ["True", "False", "None"]

/-- The words that go on with an expression. -/
def infixWords : List Text := ["if", "in", "is", "and", "or", "as"]

/-- The marks of binary operators and comparisons. -/
def binaryMarks : List Text :=
  ["+", "-", "*", "@", "/", "%", "//", "**", "|", "&", "^", "<<", ">>",
    "<", "<=", "==", "!=", ">=", ">", "<>"]

/-- The marks of unary operators. -/
def unaryMarks : List Text := ["+", "-", "~"]

/-- Whether an operand starts at the cursor with something other than a word or a string. -/
def atOperandMark (c : Cursor) : Bool :=
  numberLength c.rest != 0 || c.atAnyMark ["(", "[", "\x7b", "...", "*", "+", "-", "~"]

/-- Whether an operand may start here. -/
def startsOperand (ahead : Ahead) (c : Cursor) : Bool :=
  match ahead with
  | .string => true
  | .code => !c.word.isEmpty || c.atOperandMark
  | _ => false

end Cursor

namespace Node

/-- Whether a value can be assigned to an expression of this form, its parts aside. -/
def isPlace (n : Node) : Bool :=
  match n.kind with
  | .identifier | .attribute | .subscript => true
  | _ => false

mutual

/-- Whether a value can be assigned to the expression. -/
def isTarget : Node → Bool
  | ⟨.identifier, _, _, _⟩ | ⟨.attribute, _, _, _⟩ | ⟨.subscript, _, _, _⟩ => true
  | ⟨.starred, _, _, [inner]⟩ => inner.isPlace
  | ⟨.tuple, _, _, items⟩ | ⟨.list, _, _, items⟩ => areTargets items
  | ⟨.parenthesized, _, _, [inner]⟩ => inner.isTarget
  | _ => false

def areTargets : List Node → Bool
  | [] => true
  | n :: rest => n.isTarget && areTargets rest

end

/-- A star at offset `start` put before an expression: it belongs to the longest part that values
can be assigned to, and calls of that part keep the star inside. -/
def star? (start : Nat) : Node → Option Node
  | ⟨.call, label, span, function :: rest⟩ =>
    (function.star? start).map fun starred ↦
      ⟨.call, label, ⟨start, span.stop⟩, starred.as .function :: rest⟩
  | n => if n.isPlace then some ⟨.starred, none, ⟨start, n.span.stop⟩, [n]⟩ else none

end Node

namespace Grammar

open Parse Cursor

variable (read : Reader)

/-- One expression or more, with an optional comma at the end. -/
def expressionList (f : Follow) (stopWords : List Text := []) : Parse (List Node × Bool) :=
  commaList f.expected f.afterComma
    (fun ahead c ↦ !startsOperand ahead c || (!stopWords.isEmpty && c.atAnyWord stopWords))
    (read (.expression f))

/-- A `yield`, with or without a value. -/
def yielding (f : Follow) : Parse Node := do
  let start ← offset
  keyword "yield"
  let ahead ← look f.afterComma
  if ahead = .code && (← get).atWord "from" then
    takeWord
    let value ← read (.expression f)
    node .yielding start [value]
  else if startsOperand ahead (← get) then
    let (values, _) ← expressionList read f
    node .yielding start values
  else node .yielding start []

/-- A type: an expression, or a starred name. -/
def typeRule (f : Follow) : Parse Node := do
  let _ ← look { string := true }
  let start ← offset
  if (← get).atAnyMark ["*", "**"] then
    take (← get).mark.length
    let _ ← look {}
    let name ← identifier
    let _ ← look f.expected
    if (← get).atMark "|" then
      take 1
      let other ← read (.type f)
      node .typeNote start [name, other]
    else node .typeNote start [name]
  else read (.expression f)

/-- A type that another type after a colon may constrain. -/
def constrainedType (f : Follow) : Parse Node := do
  let first ← read (.type f)
  repeating first fun t ↦ do
    match ← look f.expected with
    | .code =>
      if (← get).atUnit ':' then
        take 1
        let bound ← read (.type f)
        return some (← node .typeNote t.span.start [t, bound])
      else return none
    | _ => return none

/-! ### Parameters -/

/-- A parameter of a function, which may have a type, or of a lambda, which may not. -/
def parameter (typed : Bool) : Parse Node := do
  let f : Follow := { closer := typed }
  let _ ← look {}
  let start ← offset
  let c ← get
  if c.atMark "/" then
    take 1
    node .pattern start []
  else if c.atAnyMark ["*", "**"] then
    take c.mark.length
    let ahead ← look f.expected
    if ahead = .code && ((← get).atAnyMark [",", ")", ":"]) then node .pattern start []
    else
      let place ← read (.operand f)
      if !place.isPlace then fail
      else annotated f start [place]
  else if c.atMark "(" then
    let place ← read (.operand f)
    if place.isTarget then withDefault f start [place] else fail
  else
    let name ← identifier
    let parts ← annotated f start [name]
    withDefault f start [parts]
where
  /-- A type after a colon. -/
  annotated (f : Follow) (start : Nat) (parts : List Node) : Parse Node := do
    let _ ← look f.expected
    if typed && (← get).atUnit ':' then
      take 1
      let t ← constrainedType read f
      node .pattern start (parts ++ [t])
    else node .pattern start parts
  /-- A default value after an equals sign. -/
  withDefault (f : Follow) (start : Nat) (parts : List Node) : Parse Node := do
    let _ ← look f.expected
    if (← get).atMark "=" then
      take 1
      let value ← read (.expression f)
      node .pattern start (parts ++ [value])
    else node .pattern start parts

/-- A list of parameters that ends where `stops` says. -/
def parameterList (typed : Bool) (stops : Cursor → Bool) : Parse (List Node) := do
  let e : Expected := { closer := typed }
  let (items, _) ← commaList e e (fun ahead c ↦ ahead != .code || stops c) (parameter read typed)
  return items

/-- A closing parenthesis. Before a colon that no expression can explain it counts as left out. -/
def closeParenthesis : Parse (List Node) := do
  let c ← get
  if c.atMark ")" then
    take 1
    return []
  else if c.atUnit ':' then
    let start ← lastEnd
    return [← node (.missing ")") start []]
  else fail

/-- The parameters of a function, in parentheses. -/
def parameters : Parse Node := do
  let start ← offset
  mark "("
  let _ ← look { closer := true }
  let c ← get
  let items ← if c.atMark ")" || c.atUnit ':' then pure []
    else parameterList read true (·.atMark ")")
  let _ ← look { closer := true }
  let close ← closeParenthesis
  node .parameters start (items ++ close)

/-- A `lambda`. -/
def lambda (f : Follow) : Parse Node := do
  let start ← offset
  keyword "lambda"
  let _ ← look {}
  let items ← if (← get).atUnit ':' then pure [] else parameterList read false (·.atUnit ':')
  let _ ← look {}
  unit ':'
  let value ← read (.expression { f with ternary := true })
  node .lambda start (items ++ [value])

/-! ### Comprehensions and displays -/

/-- An expression to which values are assigned in turn. -/
def targetRule : Parse Node := do
  let target ← read (.operand {})
  if target.isTarget then return target else fail

/-- The targets of a loop. -/
def targetList : Parse (List Node) := do
  let (targets, _) ← commaList {} { string := true }
    (fun ahead c ↦ !startsOperand ahead c || c.atWord "in") (targetRule read)
  return targets

/-- Whether a clause of a comprehension starts with a loop here. -/
def atLoop (c : Cursor) : Bool := c.atAnyWord ["for", "async"]

/-- The clauses of a comprehension: a loop, then loops and conditions. -/
def comprehensionClauses : Parse (List Node) := do
  let first ← loop
  let (_, clauses) ← repeating (false, [first]) fun (ended, clauses) ↦ do
    if ended then return none
    match ← look { closer := true } with
    | .code => do
      let c ← get
      if atLoop c then return some (false, clauses ++ [← loop])
      else if c.atWord "if" then
        takeWord
        let condition ← read (.expression { closer := true, ternary := false })
        return some (false, clauses ++ [condition])
      else return some (true, clauses)
    | _ => return some (true, clauses)
  return clauses
where
  /-- A loop of a comprehension. -/
  loop : Parse Node := do
    let start ← offset
    if (← get).atWord "async" then
      takeWord
      let _ ← look {}
    keyword "for"
    let targets ← targetList read
    let _ ← look {}
    keyword "in"
    let f : Follow := { closer := true, ternary := false }
    let (values, _) ← commaList f.expected f.afterComma
      (fun ahead c ↦ !startsOperand ahead c || c.atAnyWord ["if", "for"]) (read (.expression f))
    node .comprehension start (targets ++ values)

/-- Whether an item of a display ends here. -/
def atItemEnd (c : Cursor) : Bool :=
  c.atAnyMark [",", ")", "]", "\x7d"] || atLoop c

/-- A starred item. Where it can be, it is an expression that starts with a star. -/
def starredItem : Parse Node := do
  let asExpression : Parse Node := do
    let value ← read (.expression .bracketed)
    let _ ← look { closer := true }
    if atItemEnd (← get) then return value else fail
  let asItem : Parse Node := do
    let start ← offset
    mark "*"
    let value ← read (.expression .bracketed)
    node .starred start [value]
  orElse asExpression asItem

/-- An item of a display or of a parenthesised list. -/
def displayItem : Parse Node := do
  let ahead ← look { string := true }
  let c ← get
  if ahead = .code && c.atWord "yield" then yielding read .bracketed
  else if ahead = .code && c.atMark "*" then starredItem read
  else read (.expression .bracketed)

/-- The items after the first one of a display, up to the closing mark; whether there was a
comma. -/
def displayTail (close : Text) (first : Node) : Parse (List Node × Bool) := do
  let _ ← look { closer := true }
  if (← get).atMark "," then
    take 1
    let _ ← look { closer := true, string := true }
    if (← get).atMark close then
      take close.length
      return ([first], true)
    else
      let (items, _) ← commaList { closer := true } { closer := true, string := true }
        (fun _ c ↦ c.atMark close) (displayItem read)
      let _ ← look { closer := true }
      mark close
      return (first :: items, true)
  else
    mark close
    return ([first], false)

/-- A parenthesised expression, a tuple or a generator. -/
def parenthesized : Parse Node := do
  let start ← offset
  mark "("
  let _ ← look { closer := true, string := true }
  if (← get).atMark ")" then
    take 1
    node .tuple start []
  else
    let first ← displayItem read
    let _ ← look { closer := true }
    if atLoop (← get) then
      let clauses ← comprehensionClauses read
      let _ ← look { closer := true }
      mark ")"
      node .comprehension start (first :: clauses)
    else
      let (items, commas) ← displayTail read ")" first
      if commas || (first.kind = .starred && !first.children.all Node.isPlace) then
        node .tuple start items
      else node .parenthesized start items

/-- A list or a list comprehension. -/
def listDisplay : Parse Node := do
  let start ← offset
  mark "["
  let _ ← look { closer := true, string := true }
  if (← get).atMark "]" then
    take 1
    node .list start []
  else
    let first ← displayItem read
    let _ ← look { closer := true }
    if atLoop (← get) then
      let clauses ← comprehensionClauses read
      let _ ← look { closer := true }
      mark "]"
      node .comprehension start (first :: clauses)
    else
      let (items, _) ← displayTail read "]" first
      node .list start items

/-- A value of a dictionary after its key. -/
def pairAfter (key : Node) : Parse Node := do
  let _ ← look {}
  unit ':'
  let value ← read (.expression .bracketed)
  node .pair key.span.start [key, value]

/-- An unpacked dictionary. -/
def doubleStarred : Parse Node := do
  let start ← offset
  mark "**"
  let value ← read (.expression .bracketed)
  node .starred start [value]

/-- An item of a dictionary. -/
def dictionaryItem : Parse Node := do
  let _ ← look { string := true }
  if (← get).atMark "**" then doubleStarred read
  else
    let key ← read (.expression .header)
    pairAfter read key

/-- The rest of a dictionary after its first item. -/
def dictionaryTail (start : Nat) (first : Node) : Parse Node := do
  let _ ← look { closer := true }
  if (← get).atMark "," then
    take 1
    let _ ← look { closer := true, string := true }
    if (← get).atMark "\x7d" then
      take 1
      node .dictionary start [first]
    else
      let (items, _) ← commaList { closer := true } { closer := true, string := true }
        (fun _ c ↦ c.atMark "\x7d") (dictionaryItem read)
      let _ ← look { closer := true }
      mark "\x7d"
      node .dictionary start (first :: items)
  else
    mark "\x7d"
    node .dictionary start [first]

/-- A dictionary, a set, or a comprehension of one. -/
def braceDisplay : Parse Node := do
  let start ← offset
  mark "\x7b"
  let _ ← look { closer := true, string := true }
  let c ← get
  if c.atMark "\x7d" then
    take 1
    node .dictionary start []
  else if c.atMark "," then
    take 1
    let _ ← look { closer := true }
    mark "\x7d"
    node .dictionary start []
  else if c.atMark "**" then
    let first ← doubleStarred read
    dictionaryTail read start first
  else
    let item ← displayItem read
    let _ ← look { closer := true }
    if (← get).atUnit ':' && item.kind != .starred && item.kind != .yielding then
      let first ← pairAfter read item
      let _ ← look { closer := true }
      if atLoop (← get) then comprehension start first else dictionaryTail read start first
    else if atLoop (← get) then comprehension start item
    else
      let (items, _) ← displayTail read "\x7d" item
      node .collection start items
where
  /-- The clauses and the closing brace of a comprehension. -/
  comprehension (start : Nat) (first : Node) : Parse Node := do
    let clauses ← comprehensionClauses read
    let _ ← look { closer := true }
    mark "\x7d"
    node .comprehension start (first :: clauses)

/-! ### Calls and subscripts -/

/-- An argument of a call. -/
def argument : Parse Node := do
  let ahead ← look { string := true }
  let c ← get
  if ahead = .code && c.atMark "**" then doubleStarred read
  else if ahead = .code && c.atMark "*" then starredItem read
  else
    let value ← read (.expression .bracketed)
    let _ ← look { closer := true }
    if value.kind = .identifier && (← get).atMark "=" then
      take 1
      let named ← read (.expression .bracketed)
      node .keywordArgument value.span.start [value, named]
    else return value

/-- The arguments of a call, in parentheses. -/
def arguments : Parse Node := do
  let start ← offset
  mark "("
  let ahead ← look { closer := true, string := true }
  let c ← get
  if ahead = .code && c.atMark "," then
    take 1
    let _ ← look { closer := true }
    mark ")"
    node .argumentList start []
  else if ahead = .code && (c.atMark ")" || c.atUnit ':') then
    let close ← closeParenthesis
    node .argumentList start close
  else
    let first ← argument read
    let _ ← look { closer := true }
    if atLoop (← get) then
      let clauses ← comprehensionClauses read
      let _ ← look { closer := true }
      mark ")"
      node .comprehension start (first :: clauses)
    else
      let more ←
        if (← get).atMark "," then do
          take 1
          let _ ← look { closer := true, string := true }
          if (← get).atMark ")" then pure []
          else
            let (items, _) ← commaList { closer := true } { closer := true, string := true }
              (fun ahead c ↦ ahead = .code && c.atMark ")") (argument read)
            pure items
        else pure []
      let _ ← look { closer := true }
      let close ← closeParenthesis
      node .argumentList start (first :: more ++ close)

/-- A subscript: an expression, or a slice with its bounds and step left out or not. -/
def subscriptItem : Parse Node := do
  let ahead ← look { string := true }
  let start ← offset
  let lower ←
    if ahead = .code && (← get).atUnit ':' then pure []
    else do pure [← read (.expression .bracketed)]
  let _ ← look { closer := true }
  if (← get).atUnit ':' then
    let upper ← bound
    let _ ← look { closer := true }
    let step ← if (← get).atUnit ':' then bound else pure []
    node .operation start (lower ++ upper ++ step)
  else
    match lower with
    | [value] => return value
    | _ => fail
where
  /-- What follows a colon of a slice. -/
  bound : Parse (List Node) := do
    unit ':'
    let ahead ← look { closer := true, string := true }
    let c ← get
    if ahead = .code && (c.atAnyMark ["]", ","] || c.atUnit ':') then return []
    else return [← read (.expression .bracketed)]

/-- The subscripts of an expression, in brackets. -/
def subscripts : Parse (List Node) := do
  mark "["
  let (items, _) ← commaList { closer := true } { closer := true, string := true }
    (fun ahead c ↦ ahead = .code && c.atMark "]") (subscriptItem read)
  let _ ← look { closer := true }
  mark "]"
  return items

/-! ### Operands and expressions -/

/-- One string literal or several in a row. -/
def strings (f : Follow) : Parse Node := do
  let start ← offset
  let first ← stringLiteral read
  let all ← repeating [first] fun literals ↦ do
    match ← look f.afterComma with
    | .string => return some (literals ++ [← stringLiteral read])
    | _ => return none
  match all with
  | [literal] => return literal
  | literals => node .operation start literals

/-- A name, a literal, a display or a parenthesised expression. -/
def atom (f : Follow) : Parse Node := do
  let ahead ← look { string := true }
  let start ← offset
  let c ← get
  match ahead with
  | .string => strings read f
  | .code =>
    let number := numberLength c.rest
    if c.atAnyWord constants then
      takeWord
      node .constant start []
    else if !c.word.isEmpty then identifier
    else if number != 0 then
      take number
      node .constant start []
    else if c.atMark "(" then parenthesized read
    else if c.atMark "[" then listDisplay read
    else if c.atMark "\x7b" then braceDisplay read
    else if c.atMark "..." then
      take 3
      node .constant start []
    else fail
  | _ => fail

/-- The attribute, the call or the subscript that goes on with an operand, if there is one. -/
def trailer (f : Follow) (operand : Node) : Parse (Option Node) := do
  match ← look f.expected with
  | .code =>
    let c ← get
    if c.atMark "." then
      take 1
      let _ ← look {}
      let field ← identifier
      return some (← node .attribute operand.span.start [operand.as .object, field.as .field])
    else if c.atMark "(" then
      let list ← arguments read
      return some (← node .call operand.span.start [operand.as .function, list.as .arguments])
    else if c.atMark "[" then
      let items ← subscripts read
      return some (← node .subscript operand.span.start (operand :: items))
    else return none
  | _ => return none

/-- An atom with its attributes, calls and subscripts. -/
def primary (f : Follow) : Parse Node := do
  let first ← atom read f
  repeating first (trailer read f)

/-- A starred place with the attributes, calls and subscripts after it. -/
def starredPrimary (f : Follow) : Parse Node := do
  let start ← offset
  mark "*"
  let value ← primary read f
  match value.star? start with
  | some n => return n
  | none => fail

/-- An operand with its unary operators. -/
def operandRule (f : Follow) : Parse Node := do
  let ahead ← look { string := true }
  let start ← offset
  let c ← get
  if ahead = .code && c.atAnyMark unaryMarks then
    take 1
    let value ← read (.operand f)
    node .operation start [value]
  else if ahead = .code && c.atMark "*" then starredPrimary read f
  else if ahead = .code && c.atWord "await" then
    let name ← identifier
    let ahead ← look f.afterComma
    let c ← get
    if startsOperand ahead c && !c.atAnyWord ("not" :: infixWords) then
      let value ← read (.operand f)
      node .operation start [value]
    else repeating name (trailer read f)
  else primary read f

/-- Reads a binary operator or a comparison, if there is one. -/
def binaryOperator (f : Follow) : Parse Bool := do
  match ← look f.expected with
  | .code =>
    let c ← get
    if c.atAnyMark binaryMarks then
      take c.mark.length
      return true
    else if c.atWord "in" then
      takeWord
      return true
    else if c.atWord "is" then
      takeWord
      let _ ← look { string := true }
      if (← get).atWord "not" then takeWord
      return true
    else if c.atWord "not" then
      takeWord
      let _ ← look {}
      keyword "in"
      return true
    else return false
  | _ => return false

/-- Operands with binary operators and comparisons between them. -/
def operation (f : Follow) : Parse Node := do
  let first ← read (.operand f)
  repeating first fun left ↦ do
    if ← binaryOperator f then
      let right ← read (.operand f)
      return some (← node .operation left.span.start [left, right])
    else return none

/-- An expression. -/
def expressionRule (f : Follow) : Parse Node := do
  let ahead ← look { string := true }
  let start ← offset
  let c ← get
  if ahead = .code && c.atWord "lambda" then lambda read f
  else if ahead = .code && c.atWord "not" then
    takeWord
    let value ← read (.expression f)
    node .operation start [value]
  else
    let left ← operation read f
    match ← look f.expected with
    | .code =>
      let c ← get
      if left.kind = .identifier && c.atMark ":=" then
        take 2
        let value ← read (.expression f)
        node .named start [left, value]
      else if c.atAnyWord ["and", "or"] then
        takeWord
        let right ← read (.expression f)
        node .operation start [left, right]
      else if f.ternary && c.atWord "if" then
        takeWord
        let condition ← read (.expression .header)
        let _ ← look {}
        keyword "else"
        let other ← read (.expression f)
        node .operation start [left, condition, other]
      else if c.atWord "as" then
        takeWord
        let target ← read (.expression f)
        node .aliased start [left, target]
      else return left
    | _ => return left

/-- A replacement field of a format string: an expression, or several, or a `yield`; then an equals
sign, a conversion and a format, each optional. -/
def holeRule : Parse Node := do
  let start ← offset
  unit 123
  let _ ← look { string := true }
  let values ←
    if (← get).atWord "yield" then do pure [← yielding read .bracketed]
    else do pure (← expressionList read .bracketed).1
  let _ ← look { closer := true }
  if (← get).atMark "=" then
    take 1
    let _ ← look { closer := true }
  if (← get).atUnit '!' then
    conversion
    let _ ← look { closer := true }
  let nested ←
    if (← get).atUnit ':' then do
      take 1
      formatSpecifier read
    else pure []
  unit 125
  node .collection start (values ++ nested)

end Grammar

end Declutter.Python
