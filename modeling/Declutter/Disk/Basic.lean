import Declutter.Path
/-!
A disk as a tree of named files, symbolic links and directories. A location is the list of names
from the root down; reading and writing at a location leave every other location as it is.
-/

set_option autoImplicit false
set_option relaxedAutoImplicit false

namespace Declutter

mutual

/-- What stands at a location. -/
inductive Entry where
  | file (bytes : List UInt8)
  | link (target : Path)
  | directory (entries : List Named)

/-- An entry under its name. -/
structure Named where
  name : Text
  entry : Entry

end

/-- The names on the way from the root to an entry. -/
abbrev Location := List Text

/-- The directory at the root. -/
abbrev Disk := Entry

instance : Inhabited Entry := ⟨.directory []⟩

namespace Entry

/-- The entries of a directory; there are none in anything else. -/
def entries : Entry → List Named
  | directory es => es
  | file _ | link _ => []

def isDirectory : Entry → Bool
  | directory _ => true
  | file _ | link _ => false

def child? (e : Entry) (name : Text) : Option Entry :=
  (e.entries.find? (·.name == name)).map (·.entry)

/-- The entry at a location. Links are not followed. -/
def at? : Entry → Location → Option Entry
  | e, [] => some e
  | e, name :: rest => (e.child? name).bind (at? · rest)

end Entry

/-- The entries with the one of a name changed; if there is none, it is added. -/
def Named.update (name : Text) (f : Option Entry → Entry) : List Named → List Named
  | [] => [⟨name, f none⟩]
  | n :: rest =>
    if n.name == name then ⟨name, f (some n.entry)⟩ :: rest else n :: update name f rest

namespace Entry

/-- The tree with `new` at a location; directories on the way that are missing are made. -/
def put : Entry → Location → (new : Entry) → Entry
  | _, [], new => new
  | e, name :: rest, new =>
    directory (Named.update name (fun old ↦ put (old.getD (directory [])) rest new) e.entries)

/-- The tree without what is at a location. -/
def remove : Entry → Location → Entry
  | _, [] => directory []
  | e, [name] => directory (e.entries.filter (·.name != name))
  | e, name :: rest =>
    match e.child? name with
    | some inner => directory (Named.update name (fun _ ↦ remove inner rest) e.entries)
    | none => e

end Entry

namespace Disk

/-- Follows the pieces of a path from a location on; `jump` goes on from a link. The result holds no
link on the way to it and is none itself. -/
def walk (jump : Location → List Text → Option Location) (d : Disk) :
    Location → List Text → Option Location
  | here, [] => some here
  | here, piece :: rest =>
    if (d.at? here).any Entry.isDirectory then
      if piece = [] ∨ piece = "." then walk jump d here rest
      else if piece = ".." then walk jump d here.dropLast rest
      else
        match d.at? (here ++ [piece]) with
        | some (.link target) =>
          jump (if target.isAbsolute then [] else here) (target.pieces ++ rest)
        | some _ => walk jump d (here ++ [piece]) rest
        | none => none
    else none

/-- Follows the pieces of a path through at most `links` links. -/
def trace (d : Disk) : (links : Nat) → Location → List Text → Option Location
  | 0 => walk (fun _ _ ↦ none) d
  | links + 1 => walk (trace d links) d

/-- The number of links that are followed on the way to one entry. -/
def mostLinks : Nat := 40

/-- The location to which a path leads from the directory `base`. -/
def find? (d : Disk) (base : Location) (p : Path) : Option Location :=
  trace d mostLinks (if p.isAbsolute then [] else base) p.pieces

/-- What a path leads to. -/
def read? (d : Disk) (base : Location) (p : Path) : Option Entry := (find? d base p).bind d.at?

/-- The bytes of the file to which a path leads. -/
def bytes? (d : Disk) (base : Location) (p : Path) : Option (List UInt8) :=
  match read? d base p with
  | some (.file bytes) => some bytes
  | _ => none

def isPresent (d : Disk) (base : Location) (p : Path) : Bool := (find? d base p).isSome

def leadsToDirectory (d : Disk) (base : Location) (p : Path) : Bool :=
  (read? d base p).any Entry.isDirectory

/-- The disk after the directories along the pieces of a path have been made as far as they were
missing, and the location of the last of them. Where a file is in the way there is none. -/
def makeDirectories : Disk → Location → List Text → Disk × Option Location
  | d, here, [] => (d, some here)
  | d, here, piece :: rest =>
    if piece = [] ∨ piece = "." then makeDirectories d here rest
    else if piece = ".." then makeDirectories d here.dropLast rest
    else
      match d.at? (here ++ [piece]) with
      | none => makeDirectories (d.put (here ++ [piece]) (.directory [])) (here ++ [piece]) rest
      | some (.directory _) => makeDirectories d (here ++ [piece]) rest
      | some (.file _) => (d, none)
      | some (.link _) =>
        match trace d mostLinks here [piece] with
        | some there =>
          if (d.at? there).any Entry.isDirectory then makeDirectories d there rest else (d, none)
        | none => (d, none)

end Disk

end Declutter
