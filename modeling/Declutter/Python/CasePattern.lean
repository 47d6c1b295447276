import Declutter.Python.Expression
/-!
The rules for the patterns of a `match` statement.
-/

set_option autoImplicit false
set_option relaxedAutoImplicit false

namespace Declutter.Python.Grammar

open Parse Cursor

variable (read : Reader)

/-- Names with dots between them. -/
def dottedName (f : Follow) : Parse Node := do
  let start ← offset
  let first ← identifier
  let names ← repeating [first] fun names ↦ do
    match ← look f.expected with
    | .code =>
      if (← get).atMark "." then
        take 1
        let _ ← look {}
        return some (names ++ [← identifier])
      else return none
    | _ => return none
  match names with
  | [name] => return name
  | names => node .attribute start names

/-- Patterns in brackets, with commas between them. -/
def bracketedPatterns (opening closing : Text) (item : Parse Node) : Parse Node := do
  let start ← offset
  mark opening
  let e : Expected := { closer := true, string := true }
  let _ ← look e
  if (← get).atMark closing then
    take closing.length
    node .pattern start []
  else
    let (items, _) ← commaList { closer := true } e
      (fun ahead c ↦ ahead = .code && c.atMark closing) item
    let _ ← look { closer := true }
    mark closing
    node .pattern start items

/-- An item of a pattern in braces: a key with a pattern, or the rest of the mapping. -/
def mappingItem : Parse Node := do
  let ahead ← look { string := true }
  if ahead = .code && (← get).atAnyMark ["*", "**"] then read (.simplePattern .bracketed)
  else
    let key ← read (.simplePattern .header)
    let _ ← look {}
    unit ':'
    let value ← read (.casePattern .bracketed)
    node .pair key.span.start [key, value]

/-- A number of a pattern. -/
def patternNumber : Parse Unit := do
  let _ ← look {}
  let n := numberLength (← get).rest
  if n = 0 then fail else take n

/-- A pattern that is no alternative of patterns. -/
def closedPattern (f : Follow) : Parse Node := do
  let ahead ← look { string := true }
  let start ← offset
  let c ← get
  if ahead = .string then strings read f
  else if ahead != .code then fail
  else if c.atAnyWord constants then
    takeWord
    node .constant start []
  else if !c.word.isEmpty then
    let name ← dottedName f
    let ahead ← look f.expected
    if ahead = .code && (← get).atMark "(" then
      let items ← bracketedPatterns "(" ")" (read (.casePattern .bracketed))
      node .pattern start [name, items]
    else return name
  else if c.atMark "(" then bracketedPatterns "(" ")" (read (.casePattern .bracketed))
  else if c.atMark "[" then bracketedPatterns "[" "]" (read (.casePattern .bracketed))
  else if c.atMark "\x7b" then bracketedPatterns "\x7b" "\x7d" (mappingItem read)
  else if c.atAnyMark ["*", "**"] then
    take c.mark.length
    let _ ← look {}
    let name ← identifier
    node .pattern start [name]
  else
    if c.atMark "-" then take 1
    patternNumber
    let ahead ← look f.expected
    if ahead = .code && (← get).atAnyMark ["+", "-"] then
      take 1
      patternNumber
    node .constant start []

/-- A pattern, or several with bars between them. -/
def simplePatternRule (f : Follow) : Parse Node := do
  let first ← closedPattern read f
  repeating first fun left ↦ do
    match ← look f.expected with
    | .code =>
      if (← get).atMark "|" then
        take 1
        let right ← closedPattern read f
        return some (← node .pattern left.span.start [left, right])
      else return none
    | _ => return none

/-- A pattern with a keyword before it or a name after it, or a plain one. -/
def casePatternRule (f : Follow) : Parse Node := do
  let first ← simplePatternRule read f
  let ahead ← look f.expected
  let pattern ←
    if ahead = .code && first.kind = .identifier && (← get).atMark "=" then do
      take 1
      let value ← read (.simplePattern f)
      node .pattern first.span.start [first, value]
    else pure first
  repeating pattern fun p ↦ do
    match ← look f.expected with
    | .code =>
      if (← get).atWord "as" then
        takeWord
        let _ ← look {}
        let name ← identifier
        return some (← node .pattern p.span.start [p, name])
      else return none
    | _ => return none

end Declutter.Python.Grammar
