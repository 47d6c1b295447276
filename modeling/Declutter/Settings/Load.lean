import Declutter.Packages
import Declutter.Text.Distance
/-!
Reading the settings file. What it says wrongly is warned of, and then the settings are as if it had
not been said.
-/

set_option autoImplicit false
set_option relaxedAutoImplicit false

namespace Declutter

/-- A warning for each key that is not one of the settings file. -/
def Warning.ofKeys (keys : List Text) : List Warning :=
  (keys.filter fun key ↦ !Settings.keys.contains key && key != "__proto__").map fun key ↦
    .unknownKey key (Text.suggestion? key Settings.keys)

/-- The policy that a word asks for, or the usual one and a warning. -/
def Policy.ofGiven (raw : Option Text) : Policy × List Warning :=
  match raw with
  | none => (.fill, [])
  | some raw =>
    match Policy.ofWord? raw with
    | some policy => (policy, [])
    | none => (.fill, [.unknownPolicy raw (Text.suggestion? raw Policy.words)])

namespace Settings

/-- The settings that a file gives; an empty list of names gives none. -/
def ofGiven (g : Schema.Given) (policy : Policy) : Settings :=
  let usual : Settings := {}
  { functions := match g.functions with
      | some (name :: names) => name :: names
      | _ => usual.functions
    emptyBlocks := policy
    removeComments := g.removeComments.getD usual.removeComments
    recursive := g.recursive.getD usual.recursive
    backup := g.backup.getD usual.backup
    backupDirectory := g.backupDirectory.getD usual.backupDirectory
    ignore := g.ignore.getD usual.ignore
    keepDirectives := g.keepDirectives.getD usual.keepDirectives
    keepComments := g.keepComments.getD usual.keepComments }

/-- The settings that a document gives, and warnings. -/
def ofDocument (document : Schema.Checked (Option Schema.Read)) : Settings × List Warning :=
  match document with
  | .error issues => ({}, issues.map .issue)
  | .ok none => ({}, [])
  | .ok (some read) =>
    let (policy, warnings) := Policy.ofGiven read.given.emptyBlocks
    (ofGiven read.given policy, Warning.ofKeys (read.entries.map (·.1)) ++ warnings)

/-- The settings in the text of a settings file, and warnings. -/
def ofText (t : Text) (packages : Packages := {}) : Settings × List Warning :=
  match packages.load t with
  | .ok document => ofDocument (packages.validate document)
  | .error fault => ({}, [.malformed fault])

end Settings

end Declutter
