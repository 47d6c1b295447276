import Declutter.Text.Basic
/-!
Paths as texts with `/` between their segments. A path is simplified by its text alone: an empty
segment and `.` go away, and `..` takes the segment before it along.
-/

set_option autoImplicit false
set_option relaxedAutoImplicit false

namespace Declutter

/-- A file path as it is written. -/
abbrev Path := Text

namespace Path

def separator : CodeUnit := '/'

def isAbsolute (p : Path) : Bool := p.head? == some separator

/-- The pieces of a path between its separators. -/
def pieces (p : Path) : List Text := Text.splitOn separator p

/-- Adds a piece to simplified segments, which are held from the last to the first. Above the root
there is nothing to take away; above the start of a relative path `..` is kept. -/
def push (absolute : Bool) (above : List Text) (piece : Text) : List Text :=
  if piece = [] ∨ piece = "." then above
  else if piece = ".." then
    match above with
    | [] => if absolute then [] else [piece]
    | last :: rest => if last = ".." then piece :: above else rest
  else piece :: above

/-- The simplified segments of a list of pieces. -/
def simplify (absolute : Bool) (pieces : List Text) : List Text :=
  (pieces.foldl (push absolute) []).reverse

/-- The absolute path with the given segments. -/
def ofSegments (segments : List Text) : Path := separator :: Text.join [separator] segments

/-- The segments of a path seen from the directory `base`, which is absolute. -/
def segmentsFrom (base p : Path) : List Text :=
  simplify true (if p.isAbsolute then p.pieces else base.pieces ++ p.pieces)

/-- The absolute path of a path seen from the directory `base`, which is absolute. -/
def resolve (base p : Path) : Path := ofSegments (segmentsFrom base p)

/-- The simplified path; a separator at its end stays. -/
def normalize (p : Path) : Path :=
  let body := Text.join [separator] (simplify p.isAbsolute p.pieces)
  let tail := if p.getLast? == some separator && !body.isEmpty then [separator] else []
  if p.isAbsolute then separator :: body ++ tail
  else if body.isEmpty then (if p.getLast? == some separator then "./" else ".")
  else body ++ tail

/-- The path of `name` in the directory `directory`. -/
def child (directory : Path) (name : Text) : Path :=
  normalize (if directory.isEmpty then name else directory ++ separator :: name)

/-- The directory that holds what a path names; the root holds itself. -/
def parent (p : Path) : Path := normalize (p ++ ("/.." : Text))

/-- The last segment that is not empty. -/
def name (p : Path) : Text := ((p.pieces.filter (!·.isEmpty)).getLast?).getD []

/-- The offset of the last dot in a name. -/
def lastDot? (name : Text) : Option Nat :=
  (name.reverse.findIdx? fun (u : CodeUnit) ↦ u == '.').map fun i ↦ name.length - 1 - i

/-- The extension of the last segment, from its last dot on. A dot that starts the segment starts no
extension, and `..` has none. -/
def extension (p : Path) : Text :=
  match lastDot? p.name with
  | some i => if i = 0 ∨ p.name = ".." then [] else p.name.drop i
  | none => []

/-- The last segment without its extension. -/
def stem (p : Path) : Text := p.name.take (p.name.length - p.extension.length)

/-- Whether a path names a Python file. -/
def isPython (p : Path) : Bool := p.extension = ".py"

end Path

end Declutter
