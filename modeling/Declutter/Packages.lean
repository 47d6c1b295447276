import Declutter.Python.Grammar
import Declutter.Settings.Schema
import Declutter.Yaml.Document
import Declutter.Diff.Hunk
/-!
What the program takes from packages. It is written over these functions, whatever they are. Where
none are given, the ones of this project stand in, which do what the packages do as far as the
program sees it.
-/

set_option autoImplicit false
set_option relaxedAutoImplicit false

namespace Declutter

/-- The functions of packages. -/
structure Packages where
  /-- The concrete syntax tree of a Python text. -/
  parse : Text → Python.Node := Python.parse
  /-- The document in the text of a settings file. -/
  load : Text → Except Yaml.Fault (Option Yaml.Value) := Yaml.load
  /-- What a document says, key by key. -/
  validate : Option Yaml.Value → Schema.Checked (Option Schema.Read) := Schema.validate
  /-- The hunks of the way from one text to another. -/
  hunks : Text → Text → List Diff.Hunk := Diff.hunks

end Declutter
