import Declutter.Target
/-!
What happens to a block that removal leaves empty.
-/

set_option autoImplicit false
set_option relaxedAutoImplicit false

namespace Declutter

/-- `fill` puts a placeholder into the block, `remove` takes away what has become empty as far as
the code that runs stays the same, `keep` leaves the empty block as it is. -/
inductive Policy where
  | fill | remove | keep
deriving DecidableEq, Repr

namespace Policy

/-- The word by which a policy is chosen. -/
def word : Policy → Text
  | fill => "pass"
  | remove => "remove"
  | keep => "keep"

def all : List Policy := [fill, remove, keep]

def words : List Text := all.map word

def ofWord? (raw : Text) : Option Policy := all.find? (·.word = raw)

def ofWord (raw : Text) : Except SettingFault Policy :=
  match ofWord? raw with
  | some policy => .ok policy
  | none => .error (.unknownPolicy raw)

end Policy

namespace SettingFault

def message : SettingFault → Text
  | invalidName name segment =>
    "Invalid function name '" ++ name ++ "': segment '" ++ segment ++ "' is not an identifier"
  | unknownPolicy raw =>
    "Unknown empty-block policy '" ++ raw ++ "' (expected one of: " ++
    Text.join ", " Policy.words ++ ")"

end SettingFault

end Declutter
