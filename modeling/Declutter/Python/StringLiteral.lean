import Declutter.Python.Symbol
/-!
String literals: a prefix of letters, an opening quote, a content with escapes, and in a format
string replacement fields, each with an expression and an optional format.
-/

set_option autoImplicit false
set_option relaxedAutoImplicit false

namespace Declutter.Python

/-- How a string literal was opened. -/
structure Delimiter where
  quote : CodeUnit
  triple : Bool
  format : Bool
  raw : Bool
  bytes : Bool
deriving DecidableEq, Repr

namespace Delimiter

/-- The delimiter that a prefix and a text that starts with a quote open. -/
def ofPrefix (letters : Text) (t : Text) : Delimiter where
  quote := t.headD 0
  triple := match t with
    | q :: q' :: q'' :: _ => q == q' && q' == q'' && q != 96
    | _ => false
  format := letters.any fun u ↦ u == 'f' || u == 'F'
  raw := letters.any fun u ↦ u == 'r' || u == 'R'
  bytes := letters.any fun u ↦ u == 'b' || u == 'B'

/-- The length of the opening and of the closing quotes. -/
def width (d : Delimiter) : Nat := if d.triple then 3 else 1

def closes (d : Delimiter) (t : Text) : Bool := (List.replicate d.width d.quote).isPrefixOf t

end Delimiter

namespace StringLiteral

/-- The length of the escape sequence at the backslash at the head of the text; one if it is a plain
backslash. -/
def escapeLength : Text → Nat
  | _ :: 13 :: 10 :: _ => 3
  | _ :: u :: rest =>
    let digits (n : Nat) (p : CodeUnit → Bool) (t : Text) : Bool :=
  (t.take n).length == n && (t.take n).all p
    if u == 'u' && digits 4 CodeUnit.isHexDigit rest then 6
    else if u == 'U' && digits 8 CodeUnit.isHexDigit rest then 10
    else if u == 'x' && digits 2 CodeUnit.isHexDigit rest then 4
    else if digits 3 CodeUnit.isDigit (u :: rest) then 4
    else if ("\n'\"abfrntv\\" : Text).contains u then 2
    else if u == 'N' then
      match rest with
      | 123 :: name =>
        let n := (name.takeWhile (· != 125)).length
        if n = 0 || n = name.length then 1 else n + 4
      | _ => 1
    else 1
  | _ => 1

/-- The length of what a backslash in a raw literal takes along: a quote or a backslash after it,
and a line ending after that. -/
def rawEscapeLength (d : Delimiter) (t : Text) : Nat :=
  let n := match t with
    | _ :: u :: _ => if u == d.quote || u == '\\' then 2 else 1
    | _ => 1
  match t.drop n with
  | 13 :: 10 :: _ => n + 2
  | 13 :: _ => n + 1
  | 10 :: _ => n + 1
  | _ => n

/-- The parts of the content of a literal. -/
inductive Part where
  /-- So many units of content, and whether they count as content before a line ending. -/
  | content (length : Nat) (counts : Bool)
  | hole
  | close
  | bad
deriving DecidableEq, Repr

/-- The next part of the content; `counted` says whether content that counts is directly before
it. -/
def nextPart (d : Delimiter) (counted : Bool) : Text → Part
  | [] => .bad
  | u :: rest =>
    if u == 0 then .bad
    else if d.format && u == 123 then (if rest.head? == some 123 then .content 2 false else .hole)
    else if d.format && u == 125 then (if rest.head? == some 125 then .content 2 false else .bad)
    else if u == '\\' then
      if d.raw then .content (rawEscapeLength d (u :: rest)) counted
      else if d.bytes && rest.head?.any (fun (v : CodeUnit) ↦ v == 'N' || v == 'u' || v == 'U') then
        .content 3 true
      else .content (escapeLength (u :: rest)) false
    else if d.closes (u :: rest) then .close
    else if u == d.quote then .content 1 false
    else if u == '\n' && counted && !d.triple then .bad
    else .content 1 true

open Parse

/-- The content of a literal up to and with the closing quotes: the replacement fields in it. -/
def body (read : Reader) (d : Delimiter) : Parse (List Node) := do
  let (_, holes, _) ← repeating (false, [], false) fun (counted, holes, closed) ↦ do
    if closed then return none
    match nextPart d counted (← get).rest with
    | .bad => fail
    | .close => do
      take d.width
      return some (counted, holes, true)
    | .content length counts => do
      if (← get).rest.length < length then fail
      else
        take length
        return some (counts, holes, false)
    | .hole => do
      let hole ← read .hole
      return some (false, holes ++ [hole], false)
  return holes

end StringLiteral

namespace Grammar

open Parse

/-- A string literal. -/
def stringLiteral (read : Reader) : Parse Node := do
  let start ← offset
  let letters := (← get).rest.takeWhile Layout.isStringPrefix
  take letters.length
  let d := Delimiter.ofPrefix letters (← get).rest
  take d.width
  modify fun c ↦ { c with inFormat := d.format }
  let holes ← StringLiteral.body read d
  modify fun c ↦ { c with inFormat := false }
  node .string start holes

/-- A format after the colon of a replacement field, up to the closing brace. -/
def formatSpecifier (read : Reader) : Parse (List Node) := do
  let (holes, _) ← repeating ([], false) fun (holes, closed) ↦ do
    if closed then return none
    match (← get).rest with
    | [] => fail
    | 125 :: _ => return some (holes, true)
    | 123 :: _ => do
      let hole ← read .hole
      return some (holes ++ [hole], false)
    | _ => do
      take 1
      return some (holes, false)
  return holes

/-- A conversion such as `!r`. -/
def conversion : Parse Unit := do
  match (← get).rest with
  | 33 :: u :: _ => if u.isAsciiLower then take 2 else fail
  | _ => fail

end Grammar

end Declutter.Python
