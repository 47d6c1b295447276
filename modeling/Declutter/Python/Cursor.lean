import Declutter.Python.Layout
import Declutter.Python.Node
import Declutter.Text.IdentifierClass
/-!
A cursor over a Python text and the reading of single tokens. Tokens are read on demand: what the
blanks before a token mean depends on what may come next, and whether a word is a keyword on where
it stands.
-/

set_option autoImplicit false
set_option relaxedAutoImplicit false

namespace Declutter.Python

/-- A place in the text, with the blocks that are open there. -/
structure Cursor where
  rest : Text
  offset : Nat := 0
  /-- The offset after the last token read. -/
  lastEnd : Nat := 0
  /-- The columns of the open blocks, the innermost first. -/
  columns : List Nat := []
  /-- Whether the string literal opened last is a format string that is still open. -/
  inFormat : Bool := false

namespace Cursor

/-- The cursor `n` units further on, at a place that is not the end of a token. -/
def skip (n : Nat) (c : Cursor) : Cursor := { c with rest := c.rest.drop n, offset := c.offset + n }

/-- The cursor after a token of `n` units. -/
def take (n : Nat) (c : Cursor) : Cursor := { c.skip n with lastEnd := c.offset + n }

/-- The cursor at the end of the text. -/
def toEnd (c : Cursor) : Cursor := c.take c.rest.length

/-! ### Words -/

/-- The length of the longest continuation of an identifier at the head of the text. -/
def wordTail : Text → Nat
  | [] => 0
  | [u] => if IdentifierClass.isContinue u.toNat then 1 else 0
  | u :: v :: rest =>
    if u.isHighSurrogate && v.isLowSurrogate then
      if IdentifierClass.isContinue (CodeUnit.joinSurrogates u v) then 2 + wordTail rest else 0
    else if IdentifierClass.isContinue u.toNat then 1 + wordTail (v :: rest)
    else 0

/-- The length of the word at the head of the text; zero if none is there. -/
def wordLength : Text → Nat
  | [] => 0
  | [u] => if IdentifierClass.isStart u.toNat then 1 else 0
  | u :: v :: rest =>
    if u.isHighSurrogate && v.isLowSurrogate then
      if IdentifierClass.isStart (CodeUnit.joinSurrogates u v) then 2 + wordTail rest else 0
    else if IdentifierClass.isStart u.toNat then 1 + wordTail (v :: rest)
    else 0

/-- The word at the cursor; empty if none is there. -/
def word (c : Cursor) : Text := c.rest.take (wordLength c.rest)

/-- Whether the word at the cursor is the given one. -/
def atWord (w : Text) (c : Cursor) : Bool := c.word == w

/-- Whether the word at the cursor is one of the given ones. -/
def atAnyWord (ws : List Text) (c : Cursor) : Bool := ws.contains c.word

/-! ### Punctuation -/

/-- The punctuation of more than one unit, the longer marks before the shorter ones. -/
def longMarks : List Text :=
  ["**=", "//=", ">>=", "<<=", "...", "**", "//", "<<", ">>", "<=", ">=", "==", "!=",
    "<>", "->", ":=", "+=", "-=", "*=", "/=", "%=", "@=", "&=", "|=", "^="]

/-- The punctuation mark at the cursor: the longest mark that fits, else a single unit. -/
def mark (c : Cursor) : Text := (longMarks.find? (·.isPrefixOf c.rest)).getD (c.rest.take 1)

/-- Whether the punctuation mark at the cursor is the given one. -/
def atMark (m : Text) (c : Cursor) : Bool := c.mark == m

/-- Whether the punctuation mark at the cursor is one of the given ones. -/
def atAnyMark (ms : List Text) (c : Cursor) : Bool := ms.contains c.mark

/-- Whether the unit at the cursor is the given one. -/
def atUnit (u : CodeUnit) (c : Cursor) : Bool := c.rest.head? == some u

/-! ### Numbers -/

/-- The length of the longest run of digits that single underscores may follow. -/
def digitsLength : Text → Nat
  | [] => 0
  | [u] => if u.isDigit then 1 else 0
  | u :: v :: rest =>
    if u.isDigit then (if v == '_' then 2 + digitsLength rest else 1 + digitsLength (v :: rest))
    else 0

/-- The length of the longest run of units in a class, each of which one underscore may precede. -/
def groupedLength (p : CodeUnit → Bool) : Text → Nat
  | [] => 0
  | [u] => if p u then 1 else 0
  | u :: v :: rest =>
    if p u then 1 + groupedLength p (v :: rest)
    else if u == '_' && p v then 2 + groupedLength p rest
    else 0

/-- The length of an exponent at the head of the text. -/
def exponentLength (t : Text) : Nat :=
  match t with
  | u :: rest =>
    if u == 'e' || u == 'E' then
      match rest with
      | v :: rest' =>
        if v == '+' || v == '-' then (if digitsLength rest' = 0 then 0 else 2 + digitsLength rest')
        else if digitsLength rest = 0 then 0 else 1 + digitsLength rest
      | [] => 0
    else 0
  | [] => 0

/-- The length of a mark of a long or an imaginary number. -/
def numberSuffixLength (t : Text) : Nat :=
  if t.head?.any (fun (u : CodeUnit) ↦ u == 'l' || u == 'L' || u == 'j' || u == 'J') then 1 else 0

/-- The length of a number with a base other than ten, after its zero and its letter. -/
def basedLength (p : CodeUnit → Bool) (t : Text) : Nat :=
  let n := groupedLength p (t.drop 2)
  if n = 0 then 0
  else 2 + n +
    (if (t.drop (2 + n)).head?.any (fun (u : CodeUnit) ↦ u == 'l' || u == 'L') then 1 else 0)

/-- The length of the number in base ten at the head of the text. -/
def decimalLength (t : Text) : Nat :=
  let whole := digitsLength t
  let point :=
    if (t.drop whole).head? == some (CodeUnit.ofChar '.') then
      let fraction := digitsLength (t.drop (whole + 1))
      if whole = 0 && fraction = 0 then 0 else 1 + fraction
    else 0
  let mantissa := whole + point
  if mantissa = 0 then 0
  else
    let body := mantissa + exponentLength (t.drop mantissa)
    body + numberSuffixLength (t.drop body)

/-- The length of the number at the head of the text; zero if none is there. -/
def numberLength (t : Text) : Nat :=
  let based :=
    match t with
    | 48 :: u :: _ =>
      if u == 'x' || u == 'X' then basedLength CodeUnit.isHexDigit t
      else if u == 'o' || u == 'O' then basedLength (fun v ↦ '0' ≤ v && v ≤ '7') t
      else if u == 'b' || u == 'B' then basedLength (fun v ↦ v == '0' || v == '1') t
      else 0
    | _ => 0
  if based = 0 then decimalLength t else based

/-! ### Blanks -/

/-- A blank between tokens. -/
def isGap (u : CodeUnit) : Bool :=
  (9 ≤ u && u ≤ 13) || u == ' ' || u == 0xFEFF || u == 0x2060 || u == 0x200B

/-- The length of a line continuation at the head of the text. -/
def continuationLength : Text → Nat
  | 92 :: 13 :: 10 :: _ => 3
  | 92 :: 10 :: _ => 2
  | [92] => 1
  | _ => 0

end Cursor

/-- What stands at the cursor, blanks aside. -/
inductive Ahead where
  | newline
  | indent (column : Nat)
  | dedent
  | string
  | code
  | finish
deriving DecidableEq, Repr

/-- A reader: it moves the cursor and gives a value, or fails at an offset. -/
abbrev Parse := StateT Cursor (Except Nat)

namespace Parse

/-- Fails at the cursor. -/
def fail {α : Type} : Parse α := fun c ↦ .error c.offset

/-- Reads by `p`; where that fails, from the same place by `q`. Of two failures the later one is
told. -/
def orElse {α : Type} (p q : Parse α) : Parse α := fun c ↦
  match p c with
  | .ok r => .ok r
  | .error i =>
    match q c with
    | .ok r => .ok r
    | .error j => .error (max i j)

/-- Reads by `step` from the value `a` on, as long as it gives a value. Each step has to read
something: `bound` is more than the steps that the rest of the text has room for. -/
def iterate {α : Type} (step : α → Parse (Option α)) : (bound : Nat) → α → Parse α
  | 0, _ => fail
  | bound + 1, a => do
    match ← step a with
    | none => return a
    | some b => iterate step bound b

/-- Reads by `step` from the value `a` on, as long as it gives a value. -/
def repeating {α : Type} (a : α) (step : α → Parse (Option α)) : Parse α := do
  iterate step ((← get).rest.length + 2) a

/-- The text after the blanks and continuations before a string literal. -/
def afterGap : Text → Text
  | 92 :: 13 :: 10 :: rest => afterGap rest
  | 92 :: 10 :: rest => afterGap rest
  | u :: rest => if Cursor.isGap u then afterGap rest else u :: rest
  | [] => []

/-- Moves on over at most `bound` comments and line continuations. -/
def lookOver (e : Expected) : (bound : Nat) → Parse Ahead
  | 0 => fail
  | bound + 1 => do
    let c ← get
    match Layout.read e c.columns c.inFormat c.rest with
    | .newline => return .newline
    | .indent column => return .indent column
    | .dedent => if e.dedent then return .dedent else fail
    | .string =>
      set (c.skip (c.rest.length - (afterGap c.rest).length))
      return .string
    | .plain =>
      let c := c.skip (c.rest.takeWhile Cursor.isGap).length
      set c
      if c.rest.isEmpty then return .finish
      else if c.atUnit '#' then
        set (c.skip (c.rest.takeWhile (!·.isNewline)).length)
        lookOver e bound
      else
        let n := Cursor.continuationLength c.rest
        if n = 0 then return .code
        else
          set (c.skip n)
          lookOver e bound

/-- Moves on to the next token, over blanks, comments and line continuations, or to where the line
structure has something to say. -/
def look (e : Expected) : Parse Ahead := do lookOver e ((← get).rest.length + 1)

/-- Reads a token of `n` units. -/
def take (n : Nat) : Parse Unit := modify (·.take n)

/-- Reads the word at the cursor, which has to be an identifier or a keyword. -/
def takeWord : Parse Unit := do
  let n := Cursor.wordLength (← get).rest
  if n = 0 then fail else take n

/-- Reads the given keyword. -/
def keyword (w : Text) : Parse Unit := do
  if (← get).atWord w then takeWord else fail

/-- Reads the given punctuation mark. -/
def mark (m : Text) : Parse Unit := do
  if (← get).atMark m then take m.length else fail

/-- Reads one unit. -/
def unit (u : CodeUnit) : Parse Unit := do
  if (← get).atUnit u then take 1 else fail

/-- The end of the last token read. -/
def lastEnd : Parse Nat := return (← get).lastEnd

/-- The offset of the cursor. -/
def offset : Parse Nat := return (← get).offset

/-- The node of the given form from `start` to the last token read. -/
def node (kind : Kind) (start : Nat) (children : List Node) : Parse Node :=
  return ⟨kind, none, ⟨start, ← lastEnd⟩, children⟩

/-- The word at the cursor as an identifier. -/
def identifier : Parse Node := do
  let start ← offset
  takeWord
  node .identifier start []

/-- An item of a list, and, as long as a comma follows, further items. After a comma `stops` says
whether the list has ended, which makes it a comma at the end. -/
def commaList (afterItem afterComma : Expected) (stops : Ahead → Cursor → Bool)
    (item : Parse Node) :
    Parse (List Node × Bool) := do
  let first ← item
  repeating ([first], false) fun (items, ended) ↦ do
    if ended then return none
    match ← look afterItem with
    | .code =>
      if (← get).atMark "," then
        take 1
        let ahead ← look afterComma
        if stops ahead (← get) then return some (items, true)
        else return some (items ++ [← item], false)
      else return none
    | _ => return none

end Parse

end Declutter.Python
