import Declutter.Yaml.Value
/-!
What a plain scalar stands for: nothing, a truth value, a number, a time, the sign of a merge, or
its own text.
-/

set_option autoImplicit false
set_option relaxedAutoImplicit false

namespace Declutter.Yaml.Scalar

def isNull (t : Text) : Bool := t == "~" || t == "null" || t == "Null" || t == "NULL"

def bool? (t : Text) : Option Bool :=
  if t = "true" ∨ t = "True" ∨ t = "TRUE" then some true
  else if t = "false" ∨ t = "False" ∨ t = "FALSE" then some false
  else none

/-! ### Numbers -/

def isUnderscore (u : CodeUnit) : Bool := u == '_'

/-- The sign of a number, and what follows it. -/
def sign (t : Text) : Bool × Text :=
  match t with
  | 45 :: rest => (true, rest)
  | 43 :: rest => (false, rest)
  | _ => (false, t)

/-- The value of digits to a base; underscores do not count. -/
def value (base : Nat) (digits : Text) : Nat :=
  digits.foldl (fun n u ↦ if isUnderscore u then n else base * n + u.hexValue) 0

/-- Digits with underscores among them, of which the last is a digit. -/
def grouped (isDigit : CodeUnit → Bool) (t : Text) : Bool :=
  t.all (fun u ↦ isDigit u || isUnderscore u) && t.getLast?.any isDigit

def isBinaryDigit (u : CodeUnit) : Bool := u == '0' || u == '1'

def isOctalDigit (u : CodeUnit) : Bool := '0' ≤ u && u ≤ '7'

/-- The integer that a text writes: binary, octal and hexadecimal after `0b`, `0o` and `0x`, else
decimal. -/
def integer? (t : Text) : Option Number :=
  let (negative, body) := sign t
  let whole (isDigit : CodeUnit → Bool) (base : Nat) (digits : Text) : Option Number :=
    if grouped isDigit digits then some (.finite negative (value base digits) 0) else none
  match body with
  | 48 :: 98 :: digits => whole isBinaryDigit 2 digits
  | 48 :: 120 :: digits => whole CodeUnit.isHexDigit 16 digits
  | 48 :: 111 :: digits => whole isOctalDigit 8 digits
  | 48 :: 95 :: _ => none
  | 95 :: _ => none
  | _ => whole CodeUnit.isDigit 10 body

/-- The exponent at the head of a text: none if there is none, and what follows it. -/
def exponent (t : Text) : Option Int × Text :=
  match t with
  | u :: rest =>
    if u == 'e' || u == 'E' then
      let (negative, body) := sign rest
      let digits := body.takeWhile CodeUnit.isDigit
      let n : Int := value 10 digits
      if digits.isEmpty then (none, t)
      else (some (if negative then -n else n), body.drop digits.length)
    else (none, t)
  | [] => (none, [])

def isDigitOrUnderscore (u : CodeUnit) : Bool := u.isDigit || isUnderscore u

/-- The number of digits in a text. -/
def digitCount (t : Text) : Nat := (t.filter CodeUnit.isDigit).length

/-- The unsigned decimal fraction that a text writes. Without a digit there is no number. -/
def fraction? (negative : Bool) (t : Text) : Option Number :=
  let before := t.takeWhile isDigitOrUnderscore
  let (after, hasPoint, rest) :=
    match t.drop before.length with
    | 46 :: rest =>
      let after := rest.takeWhile isDigitOrUnderscore
      (after, true, rest.drop after.length)
    | rest => ([], false, rest)
  let (e, rest) := exponent rest
  let starts :=
    if before.isEmpty then hasPoint && !after.isEmpty else !before.head?.any isUnderscore
  if starts && rest.isEmpty && !t.getLast?.any isUnderscore then
    if digitCount (before ++ after) = 0 then some .notANumber
    else some (.finite negative (value 10 (before ++ after)) (e.getD 0 - digitCount after))
  else none

/-- The fraction, infinity or missing number that a text writes. A fraction without digits before
its point has no sign. -/
def fractional? (t : Text) : Option Number :=
  let (negative, body) := sign t
  if body = ".inf" ∨ body = ".Inf" ∨ body = ".INF" then some (.infinite negative)
  else if t = ".nan" ∨ t = ".NaN" ∨ t = ".NAN" then some .notANumber
  else if body.head? == some 46 && body.length < t.length then none
  else fraction? negative body

/-! ### Times -/

/-- Decimal digits at the head of a text, at least `least` and at most `most` of them. -/
def digits? (least most : Nat) (t : Text) : Option (Int × Text) :=
  let ds := (t.take most).takeWhile CodeUnit.isDigit
  if least ≤ ds.length then some (value 10 ds, t.drop ds.length) else none

/-- The text after a unit that it starts with. -/
def expect? (u : CodeUnit) : Text → Option Text
  | v :: rest => if u = v then some rest else none
  | [] => none

/-- A day written `YYYY-MM-DD`. -/
def day? (t : Text) : Option Instant := do
  let (year, t) ← digits? 4 4 t
  let (month, t) ← digits? 2 2 (← expect? '-' t)
  let (day, t) ← digits? 2 2 (← expect? '-' t)
  if t.isEmpty then some (Instant.ofFields year (month - 1) day 0 0 0) else none

/-- The seconds by which a zone is ahead; blanks may stand before the zone, and without one there is
no shift. -/
def zone? (t : Text) : Option Int :=
  if t.isEmpty then some 0
  else
    match t.dropWhile CodeUnit.isPadding with
    | [90] => some 0
    | u :: rest =>
      if u == '+' || u == '-' then do
        let (hours, rest) ← digits? 1 2 rest
        let (minutes, rest) ← if rest.isEmpty then some (0, [])
          else digits? 2 2 (← expect? ':' rest)
        let shift := (hours * 60 + minutes) * 60
        if rest.isEmpty then some (if u == '-' then -shift else shift) else none
      else none
    | [] => none

/-- What stands between the day and the time of day: a `T`, or blanks. -/
def afterDay? (t : Text) : Option Text :=
  match t with
  | u :: rest =>
    if u == 'T' || u == 't' then some rest
    else if u.isPadding then some (t.dropWhile CodeUnit.isPadding)
    else none
  | [] => none

/-- A day and a time of day, perhaps with a fraction of a second, which is cut off, and a zone. -/
def moment? (t : Text) : Option Instant := do
  let (year, t) ← digits? 4 4 t
  let (month, t) ← digits? 1 2 (← expect? '-' t)
  let (day, t) ← digits? 1 2 (← expect? '-' t)
  let (hour, t) ← digits? 1 2 (← afterDay? t)
  let (minute, t) ← digits? 2 2 (← expect? ':' t)
  let (second, t) ← digits? 2 2 (← expect? ':' t)
  let t := match t with
    | 46 :: rest => rest.dropWhile CodeUnit.isDigit
    | _ => t
  let shift ← zone? t
  some ⟨(Instant.ofFields year (month - 1) day hour minute second).seconds - shift⟩

def instant? (t : Text) : Option Instant := (day? t).or (moment? t)

/-! ### Plain scalars -/

/-- The sign of a merge. -/
def mergeSign : Text := "<<"

/-- What a plain scalar stands for, if it is not just its text. The sign of a merge is its own
value. -/
def resolve? (t : Text) : Option Value :=
  if isNull t then some .null
  else ((bool? t).map .bool).or <| (((integer? t).or (fractional? t)).map .number).or <|
    (instant? t).map .instant

end Declutter.Yaml.Scalar
