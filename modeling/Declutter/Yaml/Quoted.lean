import Declutter.Yaml.Cursor
/-!
Scalars written as text that runs on over lines: plain, in single quotes and in double quotes. A
single line break between two lines becomes a space, and of several the first is dropped.
-/

set_option autoImplicit false
set_option relaxedAutoImplicit false

namespace Declutter.Yaml

/-- What a number of line breaks between two lines becomes. -/
def foldBreaks (n : Nat) : Text := if n = 1 then " " else List.replicate (n - 1) 10

/-- Whether a unit may stand in a plain or a block scalar. -/
def isPrintable (u : CodeUnit) : Bool :=
  u == 9 || u == 10 || u == 13 || (0x20 ≤ u && u ≤ 0x7E) || u == 0x85 || (0xA0 ≤ u && u ≤ 0xFFFD)

/-- Whether a unit may stand in quotes. -/
def isQuotable (u : CodeUnit) : Bool := u == 9 || 0x20 ≤ u

/-- The text, if all its units may stand where it stands. -/
def checked (isAllowed : CodeUnit → Bool) (t : Text) : Except Fault Text :=
  if t.all isAllowed then .ok t else .error .unprintable

/-! ### Plain scalars -/

/-- Whether a plain scalar cannot start with a unit, whatever follows. -/
def isIndicator (u : CodeUnit) : Bool :=
  isSpace u || isFlowMark u || u == '#' || u == '&' || u == '*' || u == '!' || u == '|' || u == '>'
    || u == 39 || u == '"' || u == '%' || u == '@' || u == 96

/-- Whether the unit after an indicator sets it apart: a blank, a line break, or a mark within a
flow collection. -/
def setsApart (inFlow : Bool) (u : CodeUnit) : Bool := isSpace u || (inFlow && isFlowMark u)

/-- Whether a plain scalar starts at the place. -/
def startsPlain (inFlow : Bool) (c : Cursor) : Bool :=
  match c.peek with
  | none => false
  | some u =>
    !isIndicator u && !((u == '?' || u == '-') && c.nextIs (setsApart inFlow))

/-- A plain scalar as far as it has been read. -/
structure PlainReading where
  /-- The lines before this one, with the breaks between them folded. -/
  lines : Text := []
  /-- This line up to its last unit that is not blank, and the blanks after that, each from the last
  unit to the first. -/
  line : Text := []
  blanks : Text := []
  /-- The line breaks passed since this line ended. -/
  breaks : Nat := 0
  /-- The place after the last unit that is not blank. -/
  stop : Cursor

/-- Takes one more unit into a plain scalar. -/
def PlainReading.take (r : PlainReading) (c : Cursor) (u : CodeUnit) : PlainReading :=
  let r := if r.breaks = 0 then r
    else
      { r with
        lines := r.lines ++ r.line.reverse ++ foldBreaks r.breaks
        line := []
        blanks := []
        breaks := 0 }
  if u.isPadding then { r with blanks := u :: r.blanks }
  else { r with line := u :: r.blanks ++ r.line, blanks := [], stop := c.advance 1 }

def PlainReading.text (r : PlainReading) : Text := r.lines ++ r.line.reverse

/-- Whether a plain scalar ends before the unit at the place. -/
def endsPlain (inFlow : Bool) (c : Cursor) (u : CodeUnit) : Bool :=
  if u == ':' then c.nextIs (setsApart inFlow)
  else if u == '#' then c.last.any isSpace
  else c.atDocumentMark || (inFlow && isFlowMark u)

/-- Reads on in a plain scalar whose further lines are indented by `indent` at least. -/
def plainFrom (indent : Int) (inFlow : Bool) : (bound : Nat) → Cursor → PlainReading →
    PlainReading × Cursor
  | 0, c, r => (r, c)
  | bound + 1, c, r =>
    match c.peek with
    | none => (r, c)
    | some u =>
      if endsPlain inFlow c u then (r, c)
      else if isBreak u then
        let (next, breaks) := c.separate false
        if indent ≤ next.indent then plainFrom indent inFlow bound next { r with breaks }
        else (r, r.stop)
      else plainFrom indent inFlow bound (c.advance 1) (r.take c u)

/-- The plain scalar at the place, if there is one. -/
def plain? (indent : Int) (inFlow : Bool) (c : Cursor) : Except Fault (Option (Text × Cursor)) := do
  if startsPlain inFlow c then
    let (r, after) := plainFrom indent inFlow (c.rest.length + 1) c { stop := c }
    let t ← checked isPrintable r.text
    return if t.isEmpty then none else some (t, after)
  else return none

/-! ### Quoted scalars -/

/-- What a quoted scalar reads at a line break: the line, the folded breaks, and the place after
them. -/
def nextLine (c : Cursor) : Text × Cursor :=
  let (next, breaks) := c.separate false
  (foldBreaks breaks, next)

/-- The rest of a scalar in single quotes; a quote in it is written twice. -/
def singleFrom : (bound : Nat) → Text → Cursor → Except Fault (Text × Cursor)
  | 0, _, _ => .error (.unfinished "single quoted scalar")
  | bound + 1, done, c =>
    match c.rest with
    | [] => .error (.unfinished "single quoted scalar")
    | 39 :: 39 :: _ => singleFrom bound (done ++ [39]) (c.advance 2)
    | 39 :: _ => .ok (done, c.advance 1)
    | u :: _ =>
      if isBreak u then
        let (breaks, next) := nextLine c
        singleFrom bound (done ++ breaks) next
      else if c.atDocumentMark then .error (.unfinished "single quoted scalar")
      else if isQuotable u then singleFrom bound (done ++ [u]) (c.advance 1)
      else .error .unprintable

/-- The unit that a backslash and one more unit write. -/
def simpleEscape? (u : CodeUnit) : Option CodeUnit :=
  if u == '0' then some 0
  else if u == 'a' then some 7
  else if u == 'b' then some 8
  else if u == 't' || u == 9 then some 9
  else if u == 'n' then some 10
  else if u == 'v' then some 11
  else if u == 'f' then some 12
  else if u == 'r' then some 13
  else if u == 'e' then some 27
  else if u == ' ' || u == '"' || u == '/' || u == '\\' then some u
  else if u == 'N' then some 0x85
  else if u == '_' then some 0xA0
  else if u == 'L' then some 0x2028
  else if u == 'P' then some 0x2029
  else none

/-- The number of hexadecimal digits after an escape. -/
def escapeDigits? (u : CodeUnit) : Option Nat :=
  if u == 'x' then some 2 else if u == 'u' then some 4 else if u == 'U' then some 8 else none

/-- The units of a number of 32 bits: those of the code point, where a number with its highest bit
set counts as negative. -/
def pointUnits (n : Nat) : Text :=
  if 0x80000000 ≤ n then [UInt16.ofNat n] else CodeUnit.ofCodePoint n

/-- What an escape in double quotes writes, at the place after its backslash. -/
def escape (c : Cursor) : Except Fault (Text × Cursor) :=
  match c.peek with
  | none => .error .unknownEscape
  | some u =>
    if isBreak u then .ok ([], (c.separate false).1)
    else match simpleEscape? u, escapeDigits? u with
      | some v, _ => .ok ([v], c.advance 1)
      | none, some n =>
        let digits := (c.rest.drop 1).take n
        if digits.length == n && digits.all CodeUnit.isHexDigit then
          .ok (pointUnits (digits.foldl (fun v d ↦ 16 * v + d.hexValue) 0), c.advance (n + 1))
        else .error .hexDigitExpected
      | none, none => .error .unknownEscape

/-- The rest of a scalar in double quotes. -/
def doubleFrom : (bound : Nat) → Text → Cursor → Except Fault (Text × Cursor)
  | 0, _, _ => .error (.unfinished "double quoted scalar")
  | bound + 1, done, c =>
    match c.rest with
    | [] => .error (.unfinished "double quoted scalar")
    | 34 :: _ => .ok (done, c.advance 1)
    | 92 :: _ =>
      match escape (c.advance 1) with
      | .ok (t, next) => doubleFrom bound (done ++ t) next
      | .error fault => .error fault
    | u :: _ =>
      if isBreak u then
        let (breaks, next) := nextLine c
        doubleFrom bound (done ++ breaks) next
      else if c.atDocumentMark then .error (.unfinished "double quoted scalar")
      else if isQuotable u then doubleFrom bound (done ++ [u]) (c.advance 1)
      else .error .unprintable

/-- The quoted scalar at the place, if there is one. -/
def quoted? (c : Cursor) : Except Fault (Option (Text × Cursor)) :=
  match c.peek with
  | some 39 => (singleFrom (c.rest.length + 1) [] (c.advance 1)).map some
  | some 34 => (doubleFrom (c.rest.length + 1) [] (c.advance 1)).map some
  | _ => .ok none

end Declutter.Yaml
