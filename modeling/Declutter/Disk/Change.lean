import Declutter.Disk.Basic
/-!
The changes that make one disk out of another: the directories and files that are new, and the files
that hold other bytes than before. What is gone is no change, for nothing in this library takes away
an entry.
-/

set_option autoImplicit false
set_option relaxedAutoImplicit false

namespace Declutter

/-- One change at a location. -/
inductive Change where
  | makeDirectory (location : Location)
  | create (location : Location) (bytes : List UInt8)
  | overwrite (location : Location) (bytes : List UInt8)
deriving DecidableEq, Repr

namespace Change

/-- Whether nothing was at the location before. -/
def isAddition : Change → Bool
  | makeDirectory _ | create _ _ => true
  | overwrite _ _ => false

mutual

/-- The changes that leave `new` at a location where `old` was, if anything was there. -/
def entry (location : Location) (old : Option Entry) : (new : Entry) → List Change
  | .file bytes =>
    match old with
    | some (.file before) => if before == bytes then [] else [overwrite location bytes]
    | some _ | none => [create location bytes]
  | .directory inner =>
    (if old.any Entry.isDirectory then [] else [makeDirectory location])
      ++ entries location (old.getD (.directory [])) inner
  | .link _ => []

/-- The changes that leave the given entries in a directory, where `old` was the directory
before. -/
def entries (location : Location) (old : Entry) : List Named → List Change
  | [] => []
  | ⟨name, new⟩ :: rest =>
    entry (location ++ [name]) (old.child? name) new ++ entries location old rest

end

/-- The changes that make the disk `after` out of the disk `before`. What is new comes before what
is overwritten, so that a copy of a file is there before the file is touched. -/
def between (before after : Disk) : List Change :=
  let changes := entry [] (some before) after
  changes.filter isAddition ++ changes.filter (!·.isAddition)

end Change

end Declutter
