import Declutter.Text.Basic
/-!
Decimal numbers as they are written, and the text of the floating-point number with 53 bits nearest
to one: the fewest digits that read back as that number.
-/

set_option autoImplicit false
set_option relaxedAutoImplicit false

namespace Declutter

/-- A number: `coefficient · 10 ^ exponent` with a sign, an infinity, or none at all. -/
inductive Number where
  | finite (negative : Bool) (coefficient : Nat) (exponent : Int)
  | infinite (negative : Bool)
  | notANumber
deriving DecidableEq, Repr

namespace Number

/-- The positive floating-point number `significand · 2 ^ exponent`, with 53 bits at most. -/
structure Binary where
  significand : Nat
  exponent : Int
deriving DecidableEq, Repr

/-- The first number that needs 53 bits. -/
def leastFull : Nat := Nat.pow 2 52

/-- The least exponent of a floating-point number. -/
def leastExponent : Int := -1074

/-- A fraction of two natural numbers, of which the second is positive. -/
structure Fraction where
  numerator : Nat
  denominator : Nat
deriving DecidableEq, Repr

/-- The fraction times a power of `base`. -/
def Fraction.scale (base : Nat) (f : Fraction) (exponent : Int) : Fraction :=
  match exponent with
  | .ofNat n => ⟨f.numerator * base.pow n, f.denominator⟩
  | .negSucc n => ⟨f.numerator, f.denominator * base.pow (n + 1)⟩

/-- The nearest natural number; of two as near, the even one. -/
def Fraction.round (f : Fraction) : Nat :=
  let q := f.numerator / f.denominator
  let r := f.numerator % f.denominator
  if 2 * r < f.denominator then q
  else if f.denominator < 2 * r then q + 1
  else if q % 2 = 0 then q else q + 1

/-- The floating-point number nearest to a positive fraction. -/
def Fraction.toBinary (f : Fraction) : Binary :=
  let estimate : Int := (f.numerator.log2 : Int) - f.denominator.log2 - 52
  let fits (e : Int) : Bool :=
    (f.scale 2 (-e)).numerator < 2 * leastFull * (f.scale 2 (-e)).denominator
  let e :=
    max leastExponent (if fits (estimate - 1) then estimate - 1 else if fits estimate then estimate
    else estimate + 1)
  ⟨(f.scale 2 (-e)).round, e⟩

/-- Whether a floating-point number is beyond the greatest one. -/
def Binary.overflows (b : Binary) : Bool :=
  972 ≤ b.exponent || (b.exponent == 971 && 2 * leastFull ≤ b.significand)

/-- The digits before and after a decimal point that stands after the first `point` digits. -/
structure Digits where
  digits : List Nat
  point : Int
deriving DecidableEq, Repr

/-- The decimal digits of a natural number. -/
def digitsOf (n : Nat) : List Nat := (Nat.toDigits 10 n).map fun c ↦ c.toNat - 48

/-- Whether `n · 10 ^ exponent` is rounded to the number. The numbers between those halfway to its
neighbours are; the ends belong to a number with an even significand. -/
def Binary.readsBack (b : Binary) (n : Nat) (exponent : Int) : Bool :=
  let f := ((⟨n, 1⟩ : Fraction).scale 10 exponent).scale 2 (2 - b.exponent)
  let m := 4 * b.significand
  let low := if b.significand = leastFull ∧ leastExponent < b.exponent then m - 1 else m - 2
  let high := m + 2
  let even := b.significand % 2 == 0
  let above := low * f.denominator < f.numerator || (even && low * f.denominator == f.numerator)
  let below := f.numerator < high * f.denominator || (even && f.numerator == high * f.denominator)
  above && below

/-- The number of digits before the decimal point; zero or less for a fraction below one tenth. -/
def pointOf (f : Fraction) : Int :=
  let estimate : Int := ((f.numerator.log2 : Int) - f.denominator.log2) * 30103 / 100000
  let reaches (e : Int) : Bool :=
    let g := f.scale 10 (-e)
    g.denominator ≤ g.numerator
  if reaches (estimate + 1) then estimate + 2
  else if reaches estimate then estimate + 1
  else if reaches (estimate - 1) then estimate
  else estimate - 1

/-- The shortest digits from `count` digits on; `bound` is the number of further tries. -/
def Binary.shortestFrom (b : Binary) (f : Fraction) (point : Int) : (bound count : Nat) → Nat × Int
  | 0, count => ((f.scale 10 ((count : Int) - point)).round, point - count)
  | bound + 1, count =>
    let e := point - count
    let g := f.scale 10 (-e)
    let near := g.round
    let floor := g.numerator / g.denominator
    let other := if near = floor then floor + 1 else floor
    if b.readsBack near e then (near, e)
    else if b.readsBack other e then (other, e)
    else b.shortestFrom f point bound (count + 1)

/-- The fewest digits that read back as the number, nearest to it among those. -/
def Binary.shortest (b : Binary) : Digits :=
  let f := (⟨b.significand, 1⟩ : Fraction).scale 2 b.exponent
  let (n, e) := b.shortestFrom f (pointOf f) 17 1
  let ds := digitsOf n
  let kept := (ds.reverse.dropWhile (· == 0)).reverse
  ⟨kept, e + ds.length⟩

def digitText (ds : List Nat) : Text := ds.map fun d ↦ UInt16.ofNat (48 + d)

/-- Digits as text: positional from 10⁻⁶ to below 10²¹, else with an exponent. -/
def Digits.text (d : Digits) : Text :=
  let count : Int := d.digits.length
  if count ≤ d.point ∧ d.point ≤ 21 then
    digitText d.digits ++ List.replicate (d.point - count).toNat 48
  else if 0 < d.point ∧ d.point ≤ 21 then
    digitText (d.digits.take d.point.toNat) ++ (".": Text) ++
      digitText (d.digits.drop d.point.toNat)
  else if -6 < d.point ∧ d.point ≤ 0 then
    ("0." : Text) ++ List.replicate (-d.point).toNat 48 ++ digitText d.digits
  else
    let e := d.point - 1
    let fraction := d.digits.drop 1
    digitText (d.digits.take 1) ++
      (if fraction.isEmpty then ([] : Text) else "." ++ digitText fraction) ++
      (if 0 ≤ e then "e+" else "e-") ++ Text.ofNat e.natAbs

def signed (negative : Bool) (t : Text) : Text := if negative then "-" ++ t else t

/-- The text of a number. -/
def text : Number → Text
  | notANumber => "NaN"
  | infinite negative => signed negative "Infinity"
  | finite negative coefficient exponent =>
    let magnitude : Int := (digitsOf coefficient).length + exponent
    if coefficient = 0 ∨ magnitude < -330 then "0"
    else if 310 < magnitude then signed negative "Infinity"
    else
      let b := ((⟨coefficient, 1⟩ : Fraction).scale 10 exponent).toBinary
      if b.significand = 0 then "0"
      else if b.overflows then signed negative "Infinity"
      else signed negative b.shortest.text

end Number

end Declutter
