import Declutter.Packages
import Declutter.Report.Color
/-!
How the comparison of a file before and after a run is shown.
-/

set_option autoImplicit false
set_option relaxedAutoImplicit false

namespace Declutter.Report

/-- The style of a line by its fate; a kept line has none. -/
def hunkLine (plain : Bool) : Diff.HunkLine → Text
  | .line .kept t => " " ++ t
  | .line .removed t => Style.wrap plain [.red] ("-" ++ t)
  | .line .added t => Style.wrap plain [.green] ("+" ++ t)
  | .unterminated => Style.wrap plain [.dim] "\\ No newline at end of file"

/-- Where a hunk starts and how many lines it covers. -/
def hunkHeader (h : Diff.Hunk) : Text :=
  "@@ -" ++ Text.ofNat h.oldStart ++ "," ++ Text.ofNat h.oldLines ++ " +" ++
    Text.ofNat h.newStart ++ "," ++ Text.ofNat h.newLines ++ " @@"

def hunk (plain : Bool) (h : Diff.Hunk) : List Text :=
  Style.wrap plain [.cyan] (hunkHeader h) :: h.lines.map (hunkLine plain)

/-- The comparison of a file's text before and after; empty if nothing has changed. -/
def comparison (plain : Bool) (name before after : Text) (packages : Packages := {}) : Text :=
  if before = after then []
  else
    let header :=
      [("--- " : Text), "+++ "].map fun mark ↦ Style.wrap plain [.bold, .cyan] (mark ++ name)
    Text.join "\n" (header ++ (packages.hunks before after).flatMap (hunk plain)) ++ "\n"

end Declutter.Report
