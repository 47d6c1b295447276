import Declutter.Settings.Load
import Declutter.Removal
import Declutter.Clock
import Declutter.Log
import Declutter.Path
/-!
What a run is asked to do, and the plan that comes of it: what the request says goes before the
settings file, and this before the usual settings.
-/

set_option autoImplicit false
set_option relaxedAutoImplicit false

namespace Declutter

/-- A request to clean a file or the files of a directory. What it leaves open is left to the
settings file. -/
structure Request where
  path : Path
  functions : Option (List Text) := none
  emptyBlocks : Option Text := none
  removeComments : Option Bool := none
  recursive : Option Bool := none
  dryRun : Option Bool := none
  backup : Option Bool := none
  backupDirectory : Option Path := none
  keepDirectives : Option Bool := none
  /-- Whether output is plain; if this is left open, it is as the terminals take it. -/
  noColor : Option Bool := none
deriving DecidableEq, Repr

/-- Where and when a run takes place, and what it takes from packages. -/
structure Environment where
  /-- The working directory; its path is absolute. -/
  directory : Path
  /-- The directory for temporary files; its path is absolute. -/
  temporary : Path
  /-- The time when the run begins. -/
  now : Instant
  /-- The seconds from then on until a file is copied, at the place of its number among the files of
  the run; none where the list has come to its end. -/
  delays : List Int := []
  /-- The word for the messages that are shown. -/
  logLevel : Option Text := none
  noColor : Bool := false
  /-- Whether the output and the error output are terminals. -/
  outputTerminal : Bool := false
  errorTerminal : Bool := false
  packages : Packages := {}

namespace Environment

def verbosity (env : Environment) : Verbosity := Verbosity.ofWord env.logLevel

/-- The location of the working directory. -/
def base (env : Environment) : List Text := Path.simplify true env.directory.pieces

/-- The time when the `n`-th file is copied. -/
def clock (env : Environment) (n : Nat) : Instant := ⟨env.now.seconds + env.delays.getD n 0⟩

end Environment

/-- What a run does with each file. -/
structure Plan where
  removal : Removal
  recursive : Bool
  dryRun : Bool
  backup : Bool
  backupDirectory : Path
  ignore : List Text
  packages : Packages

namespace Plan

/-- The directory of the copies: as requested, seen from the working directory; else as set, seen
from the directory of the settings file; else the one for temporary files. An empty path counts as
none. -/
def backupDirectoryOf (env : Environment) (request : Request) (settings : Settings)
    (place : Path) : Path :=
  let given (p : Option Path) : Option Path := p.filter (!·.isEmpty)
  match given request.backupDirectory, given settings.backupDirectory with
  | some p, _ => Path.resolve env.directory p
  | none, some p => Path.resolve place p
  | none, none => env.temporary

/-- The plan for a request, where `place` is the directory of the settings file; and warnings of
patterns that are none, which come up only if the policy is one. -/
def make (env : Environment) (request : Request) (settings : Settings) (place : Path) :
    List Warning × Except SettingFault Plan :=
  match Policy.ofWord (request.emptyBlocks.getD settings.emptyBlocks.word) with
  | .error fault => ([], .error fault)
  | .ok policy =>
    let (patterns, warnings) := Pattern.compileAll settings.keepComments
    let functions := request.functions.getD settings.functions
    let plan : Plan :=
      { removal :=
          { targets := functions
            policy := policy.word
            removeComments := request.removeComments.getD settings.removeComments
            comments :=
              { preserveDirectives := request.keepDirectives.getD settings.keepDirectives
                keeps := fun t ↦ patterns.any (·.occursIn t) } }
        recursive := request.recursive.getD settings.recursive
        dryRun := request.dryRun.getD false
        backup := request.backup.getD settings.backup
        backupDirectory := backupDirectoryOf env request settings place
        ignore := settings.ignore
        packages := env.packages }
    (warnings, (TargetSet.ofNames functions).map fun _ ↦ plan)

end Plan

end Declutter
