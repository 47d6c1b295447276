import Declutter.Policy
/-!
The settings of a run, as the settings file gives them.
-/

set_option autoImplicit false
set_option relaxedAutoImplicit false

namespace Declutter

/-- What to remove, from which files, and where copies go; what the settings file does not say is as
here. -/
structure Settings where
  /-- The names of the calls to remove. -/
  functions : List Text := ["print"]
  emptyBlocks : Policy := .fill
  removeComments : Bool := false
  /-- Whether directories below the given one are entered. -/
  recursive : Bool := false
  /-- Whether a file is copied before it is written. -/
  backup : Bool := true
  /-- The directory of the copies, if not the one for temporary files. -/
  backupDirectory : Option Text := none
  /-- Patterns of paths to pass over. -/
  ignore : List Text := []
  keepDirectives : Bool := false
  /-- Regular expressions of comments to keep. -/
  keepComments : List Text := []
deriving DecidableEq, Repr

namespace Settings

/-- The keys of the settings file. -/
def keys : List Text :=
  ["functions", "empty_blocks", "remove_comments", "recursive", "backup", "backup_dir", "ignore",
    "keep_directives", "keep_comments"]

end Settings

end Declutter
