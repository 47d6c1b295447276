import Declutter.Disk.Basic
import Declutter.Clock
/-!
Copies of files under names of their own: the name of the file with the time in it, and a number if
that name is taken.
-/

set_option autoImplicit false
set_option relaxedAutoImplicit false

namespace Declutter.Backup

/-- Why a file was not copied. -/
inductive Fault where
  /-- The directory for the copy is missing and cannot be made. -/
  | noDirectory (path : Path)
  | noSource (path : Path)
  /-- A link that leads nowhere has the name of the copy. -/
  | nameTaken (path : Path)
deriving DecidableEq, Repr

def Fault.message : Fault → Text
  | noDirectory path => "cannot make the directory '" ++ path ++ "'"
  | noSource path => "cannot read '" ++ path ++ "'"
  | nameTaken path => "'" ++ path ++ "' exists already"

/-- The name of the `n`-th choice for a copy; the first choice has no number. -/
def name (file : Path) (now : Instant) (n : Nat) : Text :=
  let number := if n = 0 then ([] : Text) else "_" ++ Text.ofNat n
  file.stem ++ ("_" : Text) ++ now.stamp ++ number ++ file.extension

/-- The path of the `n`-th choice for a copy in a directory. -/
def candidate (file directory : Path) (now : Instant) (n : Nat) : Path :=
  Path.child directory (name file now n)

/-- The number of entries in the directory that holds what a path names. -/
def entriesBeside (d : Disk) (base : Location) (p : Path) : Nat :=
  ((d.read? base p.parent).map (·.entries.length)).getD 0

/-- The first candidate from number `n` on at which nothing is present; `bound` is the number of
further tries. -/
def firstFree (d : Disk) (base : Location) (file directory : Path) (now : Instant) :
    (bound n : Nat) → Path
  | 0, n => candidate file directory now n
  | bound + 1, n =>
    if d.isPresent base (candidate file directory now n) then
      firstFree d base file directory now bound (n + 1)
    else candidate file directory now n

/-- The disk with a new file at a path, in a directory that is there. Even a link that leads nowhere
stands in the way. -/
def createNew? (d : Disk) (base : Location) (p : Path) (bytes : List UInt8) : Option Disk := do
  let directory ← d.find? base p.parent
  let location := directory ++ [p.name]
  if (d.at? directory).any Entry.isDirectory && (d.at? location).isNone then
    some (d.put location (.file bytes))
  else none

/-- Copies a file into a directory, which is made if it is missing. The directory stays even if the
copy fails. Every candidate is in one directory, so that one of them is free when all its entries
have been tried. -/
def create (d : Disk) (base : Location) (file directory : Path) (now : Instant) :
    Disk × Except Fault Path :=
  let (d, made) :=
    if directory.isEmpty then (d, none)
    else Disk.makeDirectories d (if directory.isAbsolute then [] else base) directory.pieces
  match made with
  | none => (d, .error (.noDirectory directory))
  | some _ =>
    let bound := entriesBeside d base (candidate file directory now 0)
    let path := firstFree d base file directory now bound 0
    match d.bytes? base file with
    | none => (d, .error (.noSource file))
    | some bytes =>
      match createNew? d base path bytes with
      | some d => (d, .ok path)
      | none => (d, .error (.nameTaken path))

end Declutter.Backup
