/-!
Text as a list of UTF-16 code units. Every offset, span, length and order in this library counts
these units, so that a cut is a `take` and a `drop`, and one measure serves the parser, the edits,
the scanner and the report.
-/

set_option autoImplicit false
set_option relaxedAutoImplicit false

namespace Declutter

/-- One unit of UTF-16. A character beyond the basic plane is two of them. -/
abbrev CodeUnit := UInt16

/-- A text is the list of its code units. -/
abbrev Text := List CodeUnit

namespace CodeUnit

/-- The unit of a character of the basic plane. -/
abbrev ofChar (c : Char) : CodeUnit := UInt16.ofNat c.toNat

instance : Coe Char CodeUnit := ⟨ofChar⟩

/-- The first half of a surrogate pair. -/
def isHighSurrogate (u : CodeUnit) : Bool := 0xD800 ≤ u && u < 0xDC00

/-- The second half of a surrogate pair. -/
def isLowSurrogate (u : CodeUnit) : Bool := 0xDC00 ≤ u && u < 0xE000

/-- The code point that a surrogate pair stands for. -/
def joinSurrogates (high low : CodeUnit) : Nat :=
  0x10000 + (high.toNat - 0xD800) * 0x400 + (low.toNat - 0xDC00)

/-- The units of a code point: one in the basic plane, a surrogate pair above it. -/
def ofCodePoint (p : Nat) : Text :=
  if p < 0x10000 then [UInt16.ofNat p]
  else
    [UInt16.ofNat (0xD800 + (p - 0x10000) / 0x400), UInt16.ofNat (0xDC00 + (p - 0x10000) % 0x400)]

def isAsciiUpper (u : CodeUnit) : Bool := 'A' ≤ u && u ≤ 'Z'

def isAsciiLower (u : CodeUnit) : Bool := 'a' ≤ u && u ≤ 'z'

def isAsciiLetter (u : CodeUnit) : Bool := isAsciiUpper u || isAsciiLower u

def isDigit (u : CodeUnit) : Bool := '0' ≤ u && u ≤ '9'

def isHexDigit (u : CodeUnit) : Bool :=
  isDigit u || ('a' ≤ u && u ≤ 'f') || ('A' ≤ u && u ≤ 'F')

/-- The value of a hexadecimal digit; zero for any other unit. -/
def hexValue (u : CodeUnit) : Nat :=
  if isDigit u then u.toNat - 48
  else if 'a' ≤ u && u ≤ 'f' then u.toNat - 87
  else if 'A' ≤ u && u ≤ 'F' then u.toNat - 55
  else 0

/-- The line feed. -/
def isNewline (u : CodeUnit) : Bool := u == 10

/-- A space or a tab. -/
def isPadding (u : CodeUnit) : Bool := u == ' ' || u == '\t'

/-- White space: the ASCII blanks, the space separators of Unicode, the line and paragraph
separators and the byte order mark. -/
def isBlank (u : CodeUnit) : Bool :=
  (9 ≤ u && u ≤ 13) || u == ' ' || u == 0xA0 || u == 0x1680 || (0x2000 ≤ u && u ≤ 0x200A)
    || u == 0x2028 || u == 0x2029 || u == 0x202F || u == 0x205F || u == 0x3000 || u == 0xFEFF

/-- The units that end a line in a pattern: line feed, carriage return and the two separators. -/
def isLineTerminator (u : CodeUnit) : Bool :=
  u == '\n' || u == '\r' || u == 0x2028 || u == 0x2029

end CodeUnit

namespace Text

/-- The units of a string. -/
def ofString (s : String) : Text := s.toList.flatMap fun c ↦ CodeUnit.ofCodePoint c.toNat

instance : Coe String Text := ⟨ofString⟩

/-- The code points of a text; a surrogate without its partner stands for itself. -/
def codePoints : Text → List Nat
  | [] => []
  | [u] => [u.toNat]
  | u :: v :: rest =>
    if u.isHighSurrogate && v.isLowSurrogate then CodeUnit.joinSurrogates u v :: codePoints rest
    else u.toNat :: codePoints (v :: rest)

/-- The string of a text; a surrogate without its partner becomes the replacement character. -/
def toString (t : Text) : String :=
  String.ofList <| t.codePoints.map fun p ↦
    if 0xD800 ≤ p && p < 0xE000 then Char.ofNat 0xFFFD else Char.ofNat p

/-- The units from offset `start` up to offset `stop`. -/
def slice (t : Text) (start stop : Nat) : Text := (t.take stop).drop start

/-- The decimal digits of a number. -/
def ofNat (n : Nat) : Text := (Nat.toDigits 10 n).map CodeUnit.ofChar

/-- The decimal digits of an integer, after a minus sign if it is negative. -/
def ofInt : Int → Text
  | .ofNat n => ofNat n
  | .negSucc n => CodeUnit.ofChar '-' :: ofNat (n + 1)

/-- The longest part at the end of the text whose units all satisfy `p`, taken away. -/
def dropEndWhile (p : CodeUnit → Bool) (t : Text) : Text := (t.reverse.dropWhile p).reverse

/-! ### Blanks -/

/-- The text without its leading blanks. -/
def trimStart (t : Text) : Text := t.dropWhile CodeUnit.isBlank

/-- The text without its trailing blanks. -/
def trimEnd (t : Text) : Text := t.dropEndWhile CodeUnit.isBlank

/-- The text without blanks at either end. -/
def trim (t : Text) : Text := t.trimStart.trimEnd

/-- Whether the text has no unit that is not blank. -/
def isBlank (t : Text) : Bool := t.all CodeUnit.isBlank

/-! ### Pieces -/

/-- The pieces between the units that equal `separator`: one more than there are such units. -/
def splitOn (separator : CodeUnit) : Text → List Text
  | [] => [[]]
  | u :: rest =>
    if u = separator then [] :: splitOn separator rest
    else match splitOn separator rest with
      | [] => [[u]]
      | piece :: pieces => (u :: piece) :: pieces

/-- The pieces, one after the other, with `separator` between each two. -/
def join (separator : Text) : List Text → Text
  | [] => []
  | [piece] => piece
  | piece :: pieces => piece ++ separator ++ join separator pieces

/-- The text after `part`, if the text starts with it. -/
def dropPrefix? (part t : Text) : Option Text :=
  if part.isPrefixOf t then some (t.drop part.length) else none

/-- The text filled up on the left with `fill` to at least `width` units. -/
def padLeft (fill : CodeUnit) (width : Nat) (t : Text) : Text :=
  List.replicate (width - t.length) fill ++ t

/-! ### Lines -/

/-- The offset at which the line that holds offset `i` starts. -/
def lineStart (t : Text) (i : Nat) : Nat :=
  (t.take i).length - ((t.take i).reverse.takeWhile (!·.isNewline)).length

/-- The offset of the line feed that ends the line that holds offset `i`, or the length of the
text. -/
def lineEnd (t : Text) (i : Nat) : Nat :=
  t.length - ((t.drop i).dropWhile (!·.isNewline)).length

/-! ### Order -/

/-- Whether `s` comes before `t` in the order of code units. -/
def before : Text → Text → Bool
  | _, [] => false
  | [], _ :: _ => true
  | u :: s, v :: t => u < v || (u == v && before s t)

/-- ASCII letters in lower case; every other unit as it is. -/
def toLowerAscii (t : Text) : Text :=
  t.map fun u ↦ if u.isAsciiUpper then u + 32 else u

end Text

end Declutter
