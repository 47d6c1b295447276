import Declutter.Run.Plan
import Declutter.Disk.Search
import Declutter.Disk.Backup
import Declutter.Report.Comparison
import Declutter.Report.Summary
import Declutter.Text.Utf8
/-!
Cleaning files on a disk. A file that cannot be cleaned is reported and left as it is, and the run
goes on with the next one.
-/

set_option autoImplicit false
set_option relaxedAutoImplicit false

namespace Declutter

/-- A run so far: the disk, what was put out, and the totals. -/
structure Run where
  disk : Disk
  output : Text := []
  errors : Text := []
  summary : Summary := {}

/-- Why a file was not cleaned. -/
inductive FileFault where
  | unreadable
  | undecodable
  | removal (fault : RemovalFault)
  | backup (fault : Backup.Fault)
deriving DecidableEq, Repr

/-- The word for the kind of failure of a removal. -/
def RemovalFault.kind : RemovalFault → Text
  | source _ => "parse"
  | setting _ => "configuration"
  | render _ | result _ => "serialization"

def FileFault.message : FileFault → Text
  | unreadable => "read failed: no such file"
  | undecodable => "decode failed: The encoded data was not valid for encoding utf-8"
  | removal fault => fault.message
  | backup fault => "backup failed: " ++ fault.message

/-- The totals with one more file taken in. -/
def Summary.add (s : Summary) (t : Cleaned) : Summary :=
  { s with
    callsRemoved := s.callsRemoved + t.tally.callsRemoved
    commentsRemoved := s.commentsRemoved + t.commentsRemoved
    placeholdersInserted := s.placeholdersInserted + t.tally.placeholdersInserted
    constructsRemoved := s.constructsRemoved + t.tally.constructsRemoved
    filesWithCommentsRemoved :=
      s.filesWithCommentsRemoved + (if 0 < t.commentsRemoved then 1 else 0) }

namespace Run

/-- Puts out text as errors are put out. -/
def tell (t : Text) (r : Run) : Run := { r with errors := r.errors ++ t }

/-- Puts out a message, if messages of its level are shown. -/
def log (env : Environment) (level : LogLevel) (message : Text) (r : Run) : Run :=
  r.tell (env.verbosity.line level message)

/-- Notes that a file, or the whole request, failed. -/
def note (file reason : Text) (r : Run) : Run :=
  { r with summary := { r.summary with failures := r.summary.failures ++ [⟨file, reason⟩] } }

/-- Notes that a file was not cleaned, and says so. -/
def fail (env : Environment) (shown : Text) (fault : FileFault) (r : Run) : Run :=
  (r.note shown fault.message).log env .error (shown ++ ": " ++ fault.message)

/-- Counts a file as modified. -/
def countModified (r : Run) : Run :=
  { r with summary := { r.summary with filesModified := r.summary.filesModified + 1 } }

/-- Whether output is plain on a terminal or elsewhere. -/
def isPlain (env : Environment) (request : Request) (terminal : Bool) : Bool :=
  request.noColor.getD !(Style.isSupported terminal env.noColor)

/-- Shows what would be written. -/
def preview (plan : Plan) (plain : Bool) (shown before after : Text) (r : Run) : Run :=
  let comparison := Report.comparison plain shown before after plan.packages
  { r with output := r.output ++ comparison ++ "\n" }.countModified

/-- Copies a file before it is written, if that is planned; nothing if the copy fails. -/
def backup (env : Environment) (plan : Plan) (shown : Text) (path : Path) (r : Run) :
    Except (Run × Backup.Fault) Run :=
  if plan.backup then
    let (disk, outcome) :=
      Backup.create r.disk env.base path plan.backupDirectory (env.clock r.summary.filesProcessed)
    let r := { r with disk }
    match outcome with
    | .ok copy =>
      .ok
        ({ r with summary := { r.summary with backups := r.summary.backups ++ [copy] } }.log env
          .debug (shown ++ ": backup at " ++ copy))
    | .error fault => .error (r, fault)
  else .ok r

/-- Writes a file that is there. -/
def write (env : Environment) (path : Path) (t : Text) (r : Run) : Run :=
  match r.disk.find? env.base path with
  | some location => { r with disk := r.disk.put location (.file (Utf8.encode t)) }
  | none => r

/-- Writes the changed text of a file, after a copy was made. -/
def save (env : Environment) (plan : Plan) (shown : Text) (path : Path) (t : Cleaned)
    (r : Run) : Run :=
  match r.backup env plan shown path with
  | .error (r, fault) => r.fail env shown (.backup fault)
  | .ok r =>
    (r.write env path t.text).countModified.log env .info
      (shown ++ ": " ++ Text.ofNat t.tally.callsRemoved ++ " call(s), " ++
        Text.ofNat t.commentsRemoved ++ " comment(s) removed")

/-- Goes on with a file whose text was cleaned. -/
def finish (env : Environment) (plan : Plan) (plain : Bool) (shown : Text) (path : Path)
    (before : Text) (t : Cleaned) (r : Run) : Run :=
  let r := { r with summary := r.summary.add t }
  let r :=
    if 0 < t.tally.emptyBlocksKept then
      r.log env .warn (shown ++ ": " ++ Text.ofNat t.tally.emptyBlocksKept
        ++ " empty block(s) kept; the file may no longer parse")
    else r
  if !t.changed then r.log env .debug (shown ++ ": unchanged")
  else if plan.dryRun then r.preview plan plain shown before t.text
  else r.save env plan shown path t

/-- Cleans the file at a path, which is named `shown` in messages. -/
def file (env : Environment) (plan : Plan) (plain : Bool) (shown : Text) (path : Path)
    (r : Run) : Run :=
  let r := { r with summary := { r.summary with filesProcessed := r.summary.filesProcessed + 1 } }
  match r.disk.bytes? env.base path with
  | none => r.fail env shown .unreadable
  | some bytes =>
    match Utf8.decode? bytes with
    | none => r.fail env shown .undecodable
    | some before =>
      match plan.removal.apply before plan.packages.parse with
      | .error fault =>
        (r.log env .debug ("Transform failed (" ++ fault.kind ++ "): " ++ fault.message)).fail env
          shown (.removal fault)
      | .ok t => r.finish env plan plain shown path before t

/-- Cleans the files that were found in a directory. -/
def files (env : Environment) (plan : Plan) (plain : Bool) (directory : Path)
    (found : List FoundFile) (r : Run) : Run :=
  found.foldl (fun r f ↦
    r.file env plan plain f.relativePath (Path.child directory f.relativePath)) r

/-- Cleans the files of a directory. -/
def directory (env : Environment) (plan : Plan) (plain : Bool) (path : Path) (r : Run) : Run :=
  let (found, r) :=
    match Search.run ⟨plan.recursive, plan.ignore⟩ r.disk env.base path with
    | .ok found => (found, r)
    | .error fault => ([], r.log env .warn fault.message)
  let r := if found.isEmpty then r.log env .info "No Python files found." else r
  r.files env plan plain path found

/-- The settings in a directory, and warnings; without a settings file they are the usual ones. -/
def settings (env : Environment) (d : Disk) (place : Path) : Settings × List Warning :=
  match d.read? env.base (Path.child place settingsFile) with
  | some (.file bytes) => Settings.ofText (Utf8.decodeLossy bytes) env.packages
  | some _ => ({}, [.unreadable .isDirectory])
  | none => ({}, [])

/-- Ends a run before it has begun. -/
def refuse (env : Environment) (request : Request) (reason message : Text) (r : Run) : Run :=
  (r.note request.path reason).log env .error message

/-- Cleans what a plan is made for: the file or the directory at an absolute path. -/
def carryOut (env : Environment) (request : Request) (plan : Plan) (path : Path)
    (isDirectory : Bool) (r : Run) : Run :=
  let errorsPlain := isPlain env request env.errorTerminal
  let outputPlain := isPlain env request env.outputTerminal
  let r := r.tell (Style.wrap errorsPlain [.bold, .cyan] "pytrim"
    ++ (if isDirectory then " directory " else " file ") ++ path ++ "\n")
  let r :=
    if isDirectory then r.directory env plan outputPlain path
    else if path.isPython then r.file env plan outputPlain request.path path
    else r.refuse env request "not a Python (.py) file"
      (request.path ++ " is not a Python (.py) file")
  r.tell
    (Report.summary errorsPlain plan.dryRun
      (if plan.backup then some plan.backupDirectory else none) r.summary)

/-- Does what a request asks for. -/
def start (env : Environment) (request : Request) (disk : Disk) : Run :=
  let r : Run := { disk }
  let path := Path.resolve env.directory request.path
  if !disk.isPresent env.base path then
    r.refuse env request "does not exist" (request.path ++ " does not exist")
  else
    let isDirectory := disk.leadsToDirectory env.base path
    let place := if isDirectory then path else path.parent
    let (settings, warnings) := settings env disk place
    let r := r.tell (warnings.flatMap Warning.line)
    let (warnings, plan) := Plan.make env request settings place
    let r := r.tell (warnings.flatMap Warning.line)
    match plan with
    | .error fault => r.refuse env request fault.message fault.message
    | .ok plan => r.carryOut env request plan path isDirectory

end Run

end Declutter
