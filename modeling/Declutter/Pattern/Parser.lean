import Declutter.Pattern.Basic
import Declutter.Text.IdentifierClass
/-!
Reading a regular expression. The notation is the lenient one without flags: a brace that starts no
repetition, a lone closing bracket and an unknown escape stand for themselves, and a number after a
backslash is a reference only if the pattern has so many groups.
-/

set_option autoImplicit false
set_option relaxedAutoImplicit false

namespace Declutter

/-- Why a text is no regular expression. -/
inductive PatternFault where
  | nothingToRepeat
  | invalidQuantifier
  | numbersOutOfOrder
  | unterminatedGroup
  | unmatchedParenthesis
  | invalidGroup
  | invalidGroupName
  | duplicateGroupName
  | invalidNamedReference
  | unknownGroupName
  | unterminatedClass
  | rangeOutOfOrder
  | invalidEscape
  | trailingBackslash
deriving DecidableEq, Repr

def PatternFault.message : PatternFault → Text
  | nothingToRepeat => "Nothing to repeat"
  | invalidQuantifier => "Invalid quantifier"
  | numbersOutOfOrder => "numbers out of order in \x7b\x7d quantifier"
  | unterminatedGroup => "Unterminated group"
  | unmatchedParenthesis => "Unmatched ')'"
  | invalidGroup => "Invalid group"
  | invalidGroupName => "Invalid capture group name"
  | duplicateGroupName => "Duplicate capture group name"
  | invalidNamedReference => "Invalid named reference"
  | unknownGroupName => "Invalid named capture referenced"
  | unterminatedClass => "Unterminated character class"
  | rangeOutOfOrder => "Range out of order in character class"
  | invalidEscape => "Invalid escape"
  | trailingBackslash => "\\ at end of pattern"

namespace Pattern

/-! ### Groups -/

/-- The name of a group and the text after its closing mark. -/
def groupName? (t : Text) : Option (Text × Text) :=
  let name := t.takeWhile (· != 62)
  let isName :=
    match Text.codePoints name with
    | [] => false
    | p :: rest =>
      (IdentifierClass.isStart p || p == 36)
        && rest.all fun q ↦ IdentifierClass.isContinue q || q == 36 || q == 0x200C || q == 0x200D
  match t.drop name.length with
  | _ :: after => if isName then some (name, after) else none
  | [] => none

/-- The capturing groups of a pattern in order, each with its name if it has one; `inClass` says
whether a class is open. -/
def groupsOf (inClass : Bool) : Text → List (Option Text)
  | [] => []
  | 92 :: _ :: rest => groupsOf inClass rest
  | u :: rest =>
    if inClass then groupsOf (u != ']') rest
    else if u == '[' then groupsOf true rest
    else if u == '(' then
      match rest with
      | 63 :: 60 :: after =>
        if after.head? == some (CodeUnit.ofChar '=') || after.head? ==
          some (CodeUnit.ofChar '!') then
          groupsOf false rest
        else (groupName? after).map (·.1) :: groupsOf false rest
      | 63 :: _ => groupsOf false rest
      | _ => none :: groupsOf false rest
    else groupsOf false rest

/-- What a pattern as a whole says about a backslash: how many groups it has, and their names. -/
structure Scope where
  groups : List (Option Text)

namespace Scope

def count (e : Scope) : Nat := e.groups.length

def hasNames (e : Scope) : Bool := e.groups.any Option.isSome

def index? (e : Scope) (name : Text) : Option Nat :=
  (e.groups.findIdx? (· == some name)).map (· + 1)

end Scope

/-! ### Reading -/

/-- What is left to read, and the number of groups opened so far. -/
structure Reading where
  rest : Text
  opened : Nat := 0

abbrev Read := StateT Reading (Except PatternFault)

/-- Moves on by `n` units. -/
def advance (n : Nat) : Read Unit := modify fun s ↦ { s with rest := s.rest.drop n }

/-- The number that decimal digits write. -/
def decimal (digits : Text) : Nat := digits.foldl (fun n u ↦ 10 * n + (u.toNat - 48)) 0

/-- The bounds in braces at the head of a text, and the text after them. -/
def braces? (t : Text) : Option (Nat × Option Nat × Text) :=
  match t with
  | 123 :: t =>
    let low := t.takeWhile CodeUnit.isDigit
    if low.isEmpty then none
    else match t.drop low.length with
      | 125 :: after => some (decimal low, some (decimal low), after)
      | 44 :: t =>
        let high := t.takeWhile CodeUnit.isDigit
        match t.drop high.length with
        | 125 :: after =>
          some (decimal low, if high.isEmpty then none else some (decimal high), after)
        | _ => none
      | _ => none
  | _ => none

/-- The bounds of a repetition at the head of a text, and the text after them. -/
def bounds? (t : Text) : Option (Nat × Option Nat × Text) :=
  match t with
  | 42 :: after => some (0, none, after)
  | 43 :: after => some (1, none, after)
  | 63 :: after => some (0, some 1, after)
  | _ => braces? t

/-- A repetition of `p`, which opened the groups after number `before`, if one follows. -/
def quantified (repeatable : Bool) (before : Nat) (p : Pattern) : Read Pattern := do
  match bounds? (← get).rest with
  | none => return p
  | some (min, max, after) =>
    if !repeatable then throw .invalidQuantifier
    if max.any (· < min) then throw .numbersOutOfOrder
    let lazy := after.head? == some (CodeUnit.ofChar '?')
    modify fun s ↦ { s with rest := if lazy then after.drop 1 else after }
    return .repeated p min max (!lazy) (before + 1) ((← get).opened - before)

/-! ### Escapes -/

/-- The unit that up to three octal digits write, and the text after them. -/
def octal (t : Text) : CodeUnit × Text :=
  let isOctal (u : CodeUnit) : Bool := '0' ≤ u && u ≤ '7'
  let digits := (t.take 3).takeWhile isOctal
  let value (ds : Text) : Nat := ds.foldl (fun n u ↦ 8 * n + (u.toNat - 48)) 0
  let used := if value digits < 256 then digits else digits.take 2
  (UInt16.ofNat (value used), t.drop used.length)

/-- The unit that `n` hexadecimal digits write, if they are there, and the text after them. -/
def hex? (n : Nat) (t : Text) : Option (CodeUnit × Text) :=
  let digits := t.take n
  if digits.length == n && digits.all CodeUnit.isHexDigit then
    some (UInt16.ofNat (digits.foldl (fun v u ↦ 16 * v + u.hexValue) 0), t.drop n)
  else none

/-- The class of an escape such as `\d`. -/
def classEscape? (u : CodeUnit) : Option ClassItem :=
  if u == 'd' then some (.digit false)
  else if u == 'D' then some (.digit true)
  else if u == 'w' then some (.word false)
  else if u == 'W' then some (.word true)
  else if u == 's' then some (.blank false)
  else if u == 'S' then some (.blank true)
  else none

/-- The unit of an escape that is neither a class nor a reference; the text starts after the
backslash. `inClass` says whether it stands in a class. -/
def unitEscape (e : Scope) (inClass : Bool) (t : Text) : Except PatternFault (CodeUnit × Text) :=
  match t with
  | [] => .error .trailingBackslash
  | u :: rest =>
    if u == 'f' then .ok (12, rest)
    else if u == 'n' then .ok (10, rest)
    else if u == 'r' then .ok (13, rest)
    else if u == 't' then .ok (9, rest)
    else if u == 'v' then .ok (11, rest)
    else if inClass && u == 'b' then .ok (8, rest)
    else if u == 'c' then
      match rest with
      | v :: after =>
        if v.isAsciiLetter || (inClass && (v.isDigit || v == '_')) then .ok (v % 32, after)
        else .ok ('\\', t)
      | [] => .ok ('\\', t)
    else if '0' ≤ u && u ≤ '7' then .ok (octal t)
    else if u == 'x' then .ok ((hex? 2 rest).getD (u, rest))
    else if u == 'u' then .ok ((hex? 4 rest).getD (u, rest))
    else if u == 'k' && e.hasNames then .error .invalidEscape
    else .ok (u, rest)

/-- A backslash outside of a class. -/
def escape (e : Scope) : Read Pattern := do
  let t := (← get).rest.drop 1
  let digits := t.takeWhile CodeUnit.isDigit
  let number := decimal digits
  match t with
  | u :: rest =>
    if u != '0' && !digits.isEmpty && number ≤ e.count then
      advance (1 + digits.length)
      return .back number
    else if let some item := classEscape? u then
      advance 2
      return .one ⟨false, [item]⟩
    else if u == 'k' && e.hasNames then
      match rest with
      | 60 :: name =>
        match groupName? name with
        | some (name, after) =>
          match e.index? name with
          | some index =>
            modify fun s ↦ { s with rest := after }
            return .back index
          | none => throw .unknownGroupName
        | none => throw .invalidNamedReference
      | _ => throw .invalidNamedReference
    else
      let (v, after) ← (unitEscape e false t : Except PatternFault _)
      modify fun s ↦ { s with rest := after }
      return .one (.only v)
  | [] => throw .trailingBackslash

/-! ### Classes -/

/-- An item of a class, or one end of a range of units. -/
def classAtom (e : Scope) : Read (Sum CodeUnit ClassItem) := do
  match (← get).rest with
  | [] => throw .unterminatedClass
  | 92 :: t =>
    match t.head?.bind classEscape? with
    | some item =>
      advance 2
      return .inr item
    | none =>
      let (u, after) ← (unitEscape e true t : Except PatternFault _)
      modify fun s ↦ { s with rest := after }
      return .inl u
  | u :: _ =>
    advance 1
    return .inl u

/-- The items that one end of a range, or a class in its place, stands for alone. -/
def itemOf : Sum CodeUnit ClassItem → ClassItem
  | .inl u => .range u u
  | .inr item => item

/-- The items of a class up to its closing bracket, after the given ones. -/
def classItems (e : Scope) : (bound : Nat) → List ClassItem → Read (List ClassItem)
  | 0, _ => throw .unterminatedClass
  | bound + 1, items => do
    match (← get).rest with
    | [] => throw .unterminatedClass
    | 93 :: _ =>
      advance 1
      return items
    | _ =>
      let low ← classAtom e
      match (← get).rest with
      | 45 :: 93 :: _ => classItems e bound (items ++ [itemOf low])
      | 45 :: _ =>
        advance 1
        let high ← classAtom e
        match low, high with
        | .inl a, .inl b =>
          if b < a then throw .rangeOutOfOrder
          else classItems e bound (items ++ [.range a b])
        | _, _ => classItems e bound (items ++ [itemOf low, .range 45 45, itemOf high])
      | _ => classItems e bound (items ++ [itemOf low])

/-- A class in brackets. -/
def unitClass (e : Scope) : Read Pattern := do
  advance 1
  let negated := (← get).rest.head? == some (CodeUnit.ofChar '^')
  if negated then advance 1
  let items ← classItems e ((← get).rest.length + 1) []
  return .one ⟨negated, items⟩

/-! ### Groups and terms -/

/-- The inside of parentheses and the closing one. -/
def closed (inner : Read Pattern) : Read Pattern := do
  let p ← inner
  match (← get).rest with
  | 41 :: _ =>
    advance 1
    return p
  | _ => throw .unterminatedGroup

/-- A capturing group whose opening marks take `n` units. -/
def capturing (inner : Read Pattern) (n : Nat) : Read Pattern := do
  modify fun s ↦ { rest := s.rest.drop n, opened := s.opened + 1 }
  let index := (← get).opened
  return .group index (← closed inner)

/-- A parenthesis: a group or a look-around, and whether it can be repeated. -/
def parenthesis (inner : Read Pattern) : Read (Pattern × Bool) := do
  let around (n : Nat) (ahead negated : Bool) : Read (Pattern × Bool) := do
    advance n
    return (.look ahead negated (← closed inner), ahead)
  match (← get).rest with
  | 40 :: 63 :: 58 :: _ => do
    advance 3
    return (← closed inner, true)
  | 40 :: 63 :: 61 :: _ => around 3 true false
  | 40 :: 63 :: 33 :: _ => around 3 true true
  | 40 :: 63 :: 60 :: 61 :: _ => around 4 false false
  | 40 :: 63 :: 60 :: 33 :: _ => around 4 false true
  | 40 :: 63 :: 60 :: rest =>
    match groupName? rest with
    | some (name, _) => return (← capturing inner (name.length + 4), true)
    | none => throw .invalidGroupName
  | 40 :: 63 :: _ => throw .invalidGroup
  | _ => return (← capturing inner 1, true)

/-- The terms of an alternative, after what has been read of it. -/
def terms (e : Scope) (inner : Read Pattern) : (bound : Nat) → Pattern → Read Pattern
  | 0, p => return p
  | bound + 1, p => do
    let s ← get
    let add (q : Pattern) : Read Pattern := terms e inner bound (.sequence p q)
    match s.rest with
    | [] => return p
    | u :: rest =>
      if u == '|' || u == ')' then return p
      else if u == '^' then do
        advance 1
        add .start
      else if u == '$' then do
        advance 1
        add .finish
      else if u == '\\' && rest.head?.any (fun (v : CodeUnit) ↦ v == 'b' || v == 'B') then do
        advance 2
        add (.boundary (rest.head? == some (CodeUnit.ofChar 'B')))
      else if (bounds? s.rest).isSome then throw .nothingToRepeat
      else do
        let (q, repeatable) ←
          if u == '(' then parenthesis inner
          else if u == '\\' then do pure (← escape e, true)
          else if u == '[' then do pure (← unitClass e, true)
          else if u == '.' then do
            advance 1
            pure (.one .inLine, true)
          else do
            advance 1
            pure (.one (.only u), true)
        add (← quantified repeatable s.opened q)

/-- The alternatives of a pattern, after those read before. -/
def alternatives (e : Scope) (inner : Read Pattern) : (bound : Nat) → Option Pattern → Read Pattern
  | 0, p => return p.getD .empty
  | bound + 1, before => do
    let p ← terms e inner ((← get).rest.length + 1) .empty
    let p := match before with
      | some q => .choice q p
      | none => p
    match (← get).rest with
    | 124 :: _ =>
      advance 1
      alternatives e inner bound (some p)
    | _ => return p

/-- A pattern with parentheses nested at most `depth` deep. -/
def disjunction (e : Scope) : (depth : Nat) → Read Pattern
  | 0 => throw .unterminatedGroup
  | depth + 1 => do
    alternatives e (disjunction e depth) ((← get).rest.length + 1) none

/-- The pattern that a text writes. -/
def ofText (t : Text) : Except PatternFault Pattern := do
  let groups := groupsOf false t
  let e : Scope := ⟨groups⟩
  let (p, s) ← (disjunction e (t.length + 1)).run { rest := t }
  if !s.rest.isEmpty then throw .unmatchedParenthesis
  let names := groups.filterMap id
  if names.eraseDups.length != names.length then throw .duplicateGroupName
  return p

end Pattern

end Declutter
