import Declutter.Text.Basic
/-!
UTF-8: the bytes of a text, and the text of bytes. A byte that does not fit where it stands is an
error and is read again as the start of the next character, so that a broken character costs no more
than its own bytes.
-/

set_option autoImplicit false
set_option relaxedAutoImplicit false

namespace Declutter.Utf8

/-- The bytes of a code point. -/
def encodePoint (p : Nat) : List UInt8 :=
  if p < 0x80 then [UInt8.ofNat p]
  else if p < 0x800 then [UInt8.ofNat (0xC0 + p / 64), UInt8.ofNat (0x80 + p % 64)]
  else if p < 0x10000 then
    [UInt8.ofNat (0xE0 + p / 4096), UInt8.ofNat (0x80 + p / 64 % 64), UInt8.ofNat (0x80 + p % 64)]
  else
    [UInt8.ofNat (0xF0 + p / 262144), UInt8.ofNat (0x80 + p / 4096 % 64),
      UInt8.ofNat (0x80 + p / 64 % 64), UInt8.ofNat (0x80 + p % 64)]

/-- The code point that stands for something that cannot be written. -/
def replacement : Nat := 0xFFFD

/-- The bytes of a text; a surrogate without its partner becomes the replacement character. -/
def encode (t : Text) : List UInt8 :=
  t.codePoints.flatMap fun p ↦ encodePoint (if 0xD800 ≤ p && p < 0xE000 then replacement else p)

/-- A character of which some bytes have been read: its bits so far, the number of bytes to come,
and the range of the next one. -/
structure Partial where
  bits : Nat
  missing : Nat
  low : UInt8
  high : UInt8
deriving DecidableEq, Repr

/-- What the first byte of a character says: the character itself, its first part, or nothing. -/
def start (b : UInt8) : Option (Nat ⊕ Partial) :=
  if b < 0x80 then some (.inl b.toNat)
  else if 0xC2 ≤ b && b ≤ 0xDF then some (.inr ⟨b.toNat - 0xC0, 1, 0x80, 0xBF⟩)
  else if b == 0xE0 then some (.inr ⟨0, 2, 0xA0, 0xBF⟩)
  else if b == 0xED then some (.inr ⟨0xD, 2, 0x80, 0x9F⟩)
  else if 0xE1 ≤ b && b ≤ 0xEF then some (.inr ⟨b.toNat - 0xE0, 2, 0x80, 0xBF⟩)
  else if b == 0xF0 then some (.inr ⟨0, 3, 0x90, 0xBF⟩)
  else if 0xF1 ≤ b && b ≤ 0xF3 then some (.inr ⟨b.toNat - 0xF0, 3, 0x80, 0xBF⟩)
  else if b == 0xF4 then some (.inr ⟨4, 3, 0x80, 0x8F⟩)
  else none

/-- The code points of some bytes after the part of a character; each error is a `none`. -/
def points : Option Partial → List UInt8 → List (Option Nat)
  | none, [] => []
  | some _, [] => [none]
  | state, b :: rest =>
    let fresh (errors : List (Option Nat)) : List (Option Nat) :=
      match start b with
      | some (.inl p) => errors ++ some p :: points none rest
      | some (.inr part) => errors ++ points (some part) rest
      | none => errors ++ none :: points none rest
    match state with
    | none => fresh []
    | some part =>
      if part.low ≤ b && b ≤ part.high then
        let bits := part.bits * 64 + (b.toNat - 0x80)
        if part.missing ≤ 1 then some bits :: points none rest
        else points (some ⟨bits, part.missing - 1, 0x80, 0xBF⟩) rest
      else fresh [none]

/-- The text of some bytes, unless there is an error in them. A byte order mark is part of the
text. -/
def decode? (bytes : List UInt8) : Option Text :=
  ((points none bytes).mapM id).map (·.flatMap CodeUnit.ofCodePoint)

/-- The text of some bytes, with the replacement character for each error. -/
def decodeLossy (bytes : List UInt8) : Text :=
  (points none bytes).flatMap fun p ↦ CodeUnit.ofCodePoint (p.getD replacement)

end Declutter.Utf8
