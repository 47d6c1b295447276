import Declutter.Report.Color
/-!
What a run over files has done, and how it is told at the end.
-/

set_option autoImplicit false
set_option relaxedAutoImplicit false

namespace Declutter

/-- A file that could not be cleaned. -/
structure Failure where
  file : Text
  reason : Text
deriving DecidableEq, Repr

/-- The totals of a run. -/
structure Summary where
  filesProcessed : Nat := 0
  filesModified : Nat := 0
  callsRemoved : Nat := 0
  commentsRemoved : Nat := 0
  filesWithCommentsRemoved : Nat := 0
  placeholdersInserted : Nat := 0
  constructsRemoved : Nat := 0
  /-- The paths of the copies that were made, in order. -/
  backups : List Text := []
  failures : List Failure := []
deriving DecidableEq, Repr

namespace Report

/-- A number of things. -/
def count (n : Nat) (word : Text) : Text :=
  Text.ofNat n ++ (" " : Text) ++ word ++ (if n = 1 then ([] : Text) else "s")

/-- The lines on failures, if there are any. -/
def failures (plain : Bool) (failures : List Failure) : List Text :=
  if failures.isEmpty then []
  else
    Style.wrap plain [.red] ("  Failures:                    " ++ Text.ofNat failures.length)
      :: failures.map fun f ↦ Style.wrap plain [.red] ("    " ++ f.file ++ ": " ++ f.reason)

/-- The last lines: that nothing was written, or where the copies are. -/
def closing (plain dryRun : Bool) (backupDirectory : Option Text) (s : Summary) : List Text :=
  if dryRun then [[], Style.wrap plain [.yellow] "This was a dry run. No files were modified."]
  else match backupDirectory with
    | some directory =>
      if s.backups.isEmpty || directory.isEmpty then []
      else [Style.wrap plain [.dim] ("  Backups saved to " ++ directory)]
    | none => []

/-- The account of a run. -/
def summary (plain dryRun : Bool) (backupDirectory : Option Text) (s : Summary) : Text :=
  let settled := if 0 < s.placeholdersInserted ∨ 0 < s.constructsRemoved then
      [Style.wrap plain [.dim] ("  " ++ count s.placeholdersInserted "placeholder" ++ " inserted, "
        ++ count s.constructsRemoved "block" ++ " removed")]
    else []
  Text.join "\n"
    ([[], Style.wrap plain [.bold] "Summary:",
      "  Files processed:             " ++ Text.ofNat s.filesProcessed,
      "  Files modified:              " ++ Text.ofNat s.filesModified,
      "  Function calls removed:      " ++ Text.ofNat s.callsRemoved,
      "  Files with comments removed: " ++ Text.ofNat s.filesWithCommentsRemoved]
      ++ settled ++ failures plain s.failures ++ closing plain dryRun backupDirectory s) ++ "\n"

end Report

end Declutter
