import Declutter.Tree.Basic
/-!
Targets: the dotted names of the calls to remove. A call is a target if the path of its callee is
one of the names, from the first segment to the last.
-/

set_option autoImplicit false
set_option relaxedAutoImplicit false

namespace Declutter

/-- A rejected setting. -/
inductive SettingFault where
  | invalidName (name segment : Text)
  | unknownPolicy (raw : Text)
deriving DecidableEq, Repr

/-- The names of calls to remove, each once, in the order in which they were given. -/
structure TargetSet where
  paths : List Text
deriving DecidableEq, Repr

namespace TargetSet

/-- A letter, a digit or an underscore of ASCII. -/
def isNameUnit (u : CodeUnit) : Bool := u.isAsciiLetter || u.isDigit || u == '_'

/-- A name of ASCII letters, digits and underscores that does not start with a digit. -/
def isIdentifier : Text → Bool
  | [] => false
  | u :: rest => (u.isAsciiLetter || u == '_') && rest.all isNameUnit

/-- The segments of a dotted name, each without the blanks around it. -/
def segments (name : Text) : List Text := (name.splitOn '.').map Text.trim

/-- Adds one given name; a blank one is passed over. -/
def insert (targets : TargetSet) (raw : Text) : Except SettingFault TargetSet :=
  let name := raw.trim
  if name.isEmpty then .ok targets
  else match (segments name).find? (!isIdentifier ·) with
    | some segment => .error (.invalidName name segment)
    | none =>
      let path := Text.join "." (segments name)
      .ok (if path ∈ targets.paths then targets else ⟨targets.paths ++ [path]⟩)

/-- The names in a list with commas between them; blank ones are dropped. -/
def listed (raw : Text) : List Text := ((raw.splitOn ',').map Text.trim).filter (!·.isEmpty)

/-- The set of the given names, or the first name that is not one. -/
def ofNames (names : List Text) : Except SettingFault TargetSet :=
  names.foldlM insert ⟨[]⟩

/-- Whether the expression is a call to one of the targets. -/
def isTarget (targets : TargetSet) : Expression → Bool
  | .call _ callee _ =>
    match callee.path? with
    | some path => targets.paths.contains (Text.join "." path)
    | none => false
  | _ => false

end TargetSet

end Declutter
