import Declutter.Disk.Basic
import Declutter.Glob
/-!
Finding the Python files of a directory. Hidden entries and links are passed over, and so are
directories that hold caches, environments or build output.
-/

set_option autoImplicit false
set_option relaxedAutoImplicit false

namespace Declutter

/-- A file that was found: the names from the directory of the search down to it, and its size. -/
structure FoundFile where
  location : Location
  size : Nat
deriving DecidableEq, Repr

/-- The path of a found file as seen from the directory of the search. -/
def FoundFile.relativePath (f : FoundFile) : Path := Text.join [Path.separator] f.location

/-- Which files a search finds. -/
structure Search where
  /-- Whether directories below are entered. -/
  recursive : Bool := false
  /-- Patterns of paths to pass over. -/
  ignore : List Text := []
deriving DecidableEq, Repr

namespace Search

/-- Directories that are never entered. -/
def skippedDirectories : List Text :=
  ["node_modules", "__pycache__", "venv", "env", "site-packages", "build", "dist"]

def isHidden (name : Text) : Bool := name.head? == some 46

/-- Whether a path, given by its names, is to be passed over. -/
def isIgnored (s : Search) (location : Location) : Bool :=
  Glob.isIgnored s.ignore (Text.join [Path.separator] location)

/-- Whether a directory is entered, where `above` is the location of the one that holds it. -/
def enters (s : Search) (above : Location) (name : Text) : Bool :=
  s.recursive && !isHidden name && !skippedDirectories.contains name &&
    !s.isIgnored (above ++ [name])

/-- Whether a file is taken. -/
def takes (s : Search) (above : Location) (name : Text) : Bool :=
  !isHidden name && Path.isPython name && !s.isIgnored (above ++ [name])

mutual

/-- The files at or below an entry of the directory at the location `above`. -/
def filesOf (s : Search) (above : Location) : Named → List FoundFile
  | ⟨name, .file bytes⟩ => if s.takes above name then [⟨above ++ [name], bytes.length⟩] else []
  | ⟨name, .directory entries⟩ =>
    if s.enters above name then filesAmong s (above ++ [name]) entries else []
  | ⟨_, .link _⟩ => []

def filesAmong (s : Search) (above : Location) : List Named → List FoundFile
  | [] => []
  | n :: rest => filesOf s above n ++ filesAmong s above rest

end

/-- The order of found files: by relative path, unit by unit. -/
def le (a b : FoundFile) : Bool := !Text.before b.relativePath a.relativePath

/-- The files that a search finds in a directory, in order. -/
def files (s : Search) (directory : List Named) : List FoundFile :=
  (filesAmong s [] directory).mergeSort le

/-- Why a search did not take place. -/
inductive Fault where
  | noDirectory (path : Path)
deriving DecidableEq, Repr

def Fault.message : Fault → Text
  | noDirectory path => "Cannot read directory " ++ path ++ ": not a directory"

/-- The files that a search finds in the directory to which a path leads. -/
def run (s : Search) (d : Disk) (base : Location) (p : Path) : Except Fault (List FoundFile) :=
  match d.read? base p with
  | some (.directory entries) => .ok (s.files entries)
  | _ => .error (.noDirectory p)

end Search

end Declutter
