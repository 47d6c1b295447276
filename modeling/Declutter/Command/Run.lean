import Declutter.Run.Cleaning
import Declutter.Command.Arguments
import Declutter.Command.Help
/-!
The command as a whole: what it puts out, the disk after it, and its exit code.
-/

set_option autoImplicit false
set_option relaxedAutoImplicit false

namespace Declutter.Command

/-- What the command leaves behind. -/
structure Outcome where
  disk : Disk
  output : Text := []
  errors : Text := []
  code : Nat

/-- What a list of arguments asks for. -/
inductive Task where
  | help (code : Nat)
  | version
  | reject (fault : UsageFault)
  /-- Clean, with the given word for the messages that are shown. -/
  | clean (request : Request) (logLevel : Option Text)
deriving DecidableEq, Repr

/-- The task of some arguments. Help and version go before everything else, even before faults;
without arguments there is help, but it counts as a fault. -/
def task (logLevel : Option Text) (arguments : List Text) : Task :=
  let asks (flag : Flag) : Bool :=
    arguments.contains ("--" ++ flag.word) || flag.letter?.any fun l ↦ arguments.contains ("-" ++ l)
  if arguments.isEmpty then .help 2
  else if asks .help then .help 0
  else if asks .version then .version
  else match Arguments.parse arguments logLevel with
    | (.error fault, _) => .reject fault
    | (.ok a, logLevel) =>
      match a.positional with
      | [path] => .clean (a.request path) logLevel
      | paths => .reject (.pathCount paths.length)

/-- Runs the command. -/
def run (env : Environment) (disk : Disk) (arguments : List Text) : Outcome :=
  match task env.logLevel arguments with
  | .help code => { disk, output := Help.text, code }
  | .version => { disk, output := Help.versionLine, code := 0 }
  | .reject fault => { disk, errors := "[pytrim] Error: " ++ fault.message ++ "\n", code := 2 }
  | .clean request logLevel =>
    let r := Run.start { env with logLevel } request disk
    { disk := r.disk
      output := r.output
      errors := r.errors
      code := if r.summary.failures.isEmpty then 0 else 1 }

end Declutter.Command
