import Declutter.Text.LowerCase
/-!
Messages to the user, each of a level, and the least level that is shown.
-/

set_option autoImplicit false
set_option relaxedAutoImplicit false

namespace Declutter

/-- How much a message matters. -/
inductive LogLevel where
  | debug | info | warn | error
deriving DecidableEq, Repr

namespace LogLevel

def rank : LogLevel → Nat
  | debug => 0
  | info => 1
  | warn => 2
  | error => 3

def word : LogLevel → Text
  | debug => "debug"
  | info => "info"
  | warn => "warn"
  | error => "error"

def all : List LogLevel := [debug, info, warn, error]

end LogLevel

/-- Which messages are shown: those of a level and above, or none. -/
inductive Verbosity where
  | atLeast (level : LogLevel)
  | silent
deriving DecidableEq, Repr

namespace Verbosity

def shows : Verbosity → LogLevel → Bool
  | .atLeast least, level => least.rank ≤ level.rank
  | silent, _ => false

/-- The verbosity that a word asks for in any letter case; without a known word, information and
what matters more. -/
def ofWord (raw : Option Text) : Verbosity :=
  let word := (raw.getD []).toLower
  if word = "silent" then silent
  else .atLeast ((LogLevel.all.find? (·.word = word)).getD .info)

/-- What a message puts out. -/
def line (v : Verbosity) (level : LogLevel) (message : Text) : Text :=
  if v.shows level then "[pytrim] " ++ message ++ "\n" else []

end Verbosity

end Declutter
