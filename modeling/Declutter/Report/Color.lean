import Declutter.Text.Basic
/-!
Colour in the output of a terminal.
-/

set_option autoImplicit false
set_option relaxedAutoImplicit false

namespace Declutter

/-- A way to make a text stand out. -/
inductive Style where
  | bold | dim | red | green | yellow | cyan
deriving DecidableEq, Repr

namespace Style

/-- The escape sequence with a number. -/
def escape (number : Nat) : Text := CodeUnit.ofChar '\x1b' :: "[" ++ Text.ofNat number ++ "m"

def code : Style → Text
  | bold => escape 1
  | dim => escape 2
  | red => escape 31
  | green => escape 32
  | yellow => escape 33
  | cyan => escape 36

/-- The sequence that ends all styles. -/
def reset : Text := escape 0

/-- A text in some styles, or as it is if the output is plain. -/
def wrap (plain : Bool) (styles : List Style) (t : Text) : Text :=
  if plain then t else styles.flatMap code ++ t ++ reset

/-- Whether an output takes colour: it is a terminal, and nobody has asked for none. -/
def isSupported (terminal noColor : Bool) : Bool := terminal && !noColor

end Style

end Declutter
