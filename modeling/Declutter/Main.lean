import Declutter.Command.Run
import Declutter.Disk.Change
import Std.Time.Zoned
/-!
The program. It takes in the part of the disk that the command may look at, runs the command on it,
and writes what has changed.
-/

set_option autoImplicit false
set_option relaxedAutoImplicit false

namespace Declutter.Program

/-- The location of an absolute path. -/
def locationOf (p : Path) : Location := Path.simplify true p.pieces

/-- Puts an entry at a location, unless something is known to be there. -/
def add (location : Location) (e : Entry) (d : Disk) : Disk :=
  if (d.at? location).isSome then d else d.put location e

/-- Takes in what a path leads to, and that it leads there. Of a directory only its being one is
taken. -/
def takeIn (p : Path) (d : Disk) : IO Disk := do
  match ← EIO.toIO' (IO.FS.realPath p.toString) with
  | .error _ => return d
  | .ok there =>
    let real := Text.ofString there.toString
    let d ←
      match (← there.metadata).type with
      | .file => do
        let bytes ← IO.FS.readBinFile there
        pure (d.put (locationOf real) (.file bytes.data.toList))
      | _ => pure (add (locationOf real) (.directory []) d)
    return if real = p then d else add (locationOf p) (.link real) d

/-- Takes in the entries of a directory: the bytes of the files whose names are wanted, and of
everything else only what it is. Directories within are entered if `deep`. -/
partial def takeInEntries (wanted : Text → Bool) (deep : Bool) (p : Path) (d : Disk) : IO Disk := do
  let mut d := d
  for e in ← (← IO.FS.realPath p.toString).readDir do
    let name := Text.ofString e.fileName
    let inner := Path.child p name
    let location := locationOf inner
    match (← e.path.symlinkMetadata).type with
    | .file =>
      if wanted name then
        let bytes ← IO.FS.readBinFile e.path
        d := d.put location (.file bytes.data.toList)
      else
        d := add location (.file []) d
    | .dir =>
      d := add location (.directory []) d
      if deep && !Search.isHidden name && !Search.skippedDirectories.contains name then
        d ← takeInEntries wanted deep inner d
    | .symlink =>
      match ← EIO.toIO' (IO.FS.realPath e.path) with
      | .ok there =>
        let real := Text.ofString there.toString
        d := add location (.link real) (add (locationOf real) (.file []) d)
      | .error _ => d := add location (.link name) d
    | .other => pure ()
  return d

/-- Takes in the names in the directory of the copies, if it is there. -/
def takeInNames (p : Path) (d : Disk) : IO Disk := do
  let d ← takeIn p d
  if d.leadsToDirectory [] p then takeInEntries (fun _ ↦ false) false p d else return d

/-- The part of the disk that a request may look at. -/
def survey (env : Environment) (request : Request) : IO Disk := do
  let path := Path.resolve env.directory request.path
  let d ← takeIn path (add env.base (.directory []) (.directory []))
  let isDirectory := d.leadsToDirectory env.base path
  let place := if isDirectory then path else path.parent
  let d ← takeIn (Path.child place settingsFile) d
  match (Plan.make env request (Run.settings env d place).1 place).2 with
  | .error _ => return d
  | .ok plan =>
    let d ← if isDirectory then takeInEntries Path.isPython plan.recursive path d else pure d
    if plan.backup && !plan.dryRun then
      takeInNames (Path.resolve env.directory plan.backupDirectory) d
    else return d

/-- Carries out a change. -/
def carryOut : Change → IO Unit
  | .makeDirectory l => IO.FS.createDirAll (Path.ofSegments l).toString
  | .create l bytes | .overwrite l bytes =>
    IO.FS.writeBinFile (Path.ofSegments l).toString ⟨bytes.toArray⟩

/-- The directory for temporary files, by the first variable that names one. -/
def temporaryDirectory : IO Path := do
  let named ← ["TMPDIR", "TMP", "TEMP"].mapM fun (name : String) ↦ IO.getEnv name
  let p := Text.ofString (((named.filterMap id).find? (!·.isEmpty)).getD "/tmp")
  return if 1 < p.length ∧ p.getLast? = some Path.separator then p.dropLast else p

/-- The seconds from the start of 1970 to now, by the clock on the wall. -/
def now : IO Instant := do
  return ⟨(← Std.Time.PlainDateTime.now).toWallTime.toSeconds.val⟩

def environment : IO Environment := do
  return {
    directory := Text.ofString (← IO.currentDir).toString
    temporary := ← temporaryDirectory
    now := ← now
    logLevel := (← IO.getEnv "PYTRIM_LOG_LEVEL").map Text.ofString
    noColor := (← IO.getEnv "NO_COLOR").isSome
    outputTerminal := ← (← IO.getStdout).isTty
    errorTerminal := ← (← IO.getStderr).isTty }

/-- Runs the command with the given arguments. -/
def run (arguments : List Text) : IO Nat := do
  let env ← environment
  let disk ← match Command.task env.logLevel arguments with
    | .clean request logLevel => survey { env with logLevel } request
    | .help _ | .version | .reject _ => pure (.directory [])
  let outcome := Command.run env disk arguments
  (Change.between disk outcome.disk).forM carryOut
  IO.print outcome.output.toString
  IO.eprint outcome.errors.toString
  return outcome.code

end Declutter.Program

/-- The command line: the exit code is the one of the command, or 1 if the disk fails. -/
def main (arguments : List String) : IO UInt32 := do
  try
    return (← Declutter.Program.run (arguments.map Declutter.Text.ofString)).toUInt32
  catch e =>
    IO.eprintln ("[pytrim] Fatal: " ++ toString e)
    return 1
