import Declutter.Text.Basic
/-!
Comparing two texts line by line. A script turns the one into the other by keeping, removing and
adding lines. It is found by growing, one edit at a time, the furthest path on each diagonal of the
grid of both texts; a diagonal is named by the number of lines removed minus the number of lines
added on the way.
-/

set_option autoImplicit false
set_option relaxedAutoImplicit false

namespace Declutter

/-- The lines of a text, each with the line feed that ends it. -/
def Text.lines : Text → List Text
  | [] => []
  | u :: rest =>
    if u.isNewline then [u] :: lines rest
    else match lines rest with
      | [] => [[u]]
      | line :: others => (u :: line) :: others

namespace Diff

/-- What happens to a line on the way from the old text to the new one. -/
inductive Fate where
  | kept | removed | added
deriving DecidableEq, Repr

/-- Lines in a row that share their fate. -/
structure Stretch where
  fate : Fate
  lines : List Text
deriving DecidableEq, Repr

/-- A path through the grid: the lines still ahead on both sides, the number of old lines passed,
and the stretches so far. These are held from the last to the first, and so are the lines in
each. -/
structure Trail where
  passed : Nat
  old : List Text
  new : List Text
  stretches : List Stretch
deriving Repr

namespace Trail

/-- One more line at the end of the stretches. -/
def extend (fate : Fate) (line : Text) : List Stretch → List Stretch
  | s :: rest =>
    if s.fate = fate then { s with lines := line :: s.lines } :: rest
    else ⟨fate, [line]⟩ :: s :: rest
  | [] => [⟨fate, [line]⟩]

/-- Passes the lines that both sides have in common. -/
def slide (passed : Nat) (stretches : List Stretch) : (old new : List Text) → Trail
  | a :: old, b :: new =>
    if a = b then slide (passed + 1) (extend .kept a stretches) old new
    else ⟨passed, a :: old, b :: new, stretches⟩
  | old, new => ⟨passed, old, new, stretches⟩

/-- The path after the removal of the next old line. -/
def remove? (p : Trail) : Option Trail :=
  match p.old with
  | a :: old => some ⟨p.passed + 1, old, p.new, extend .removed a p.stretches⟩
  | [] => none

/-- The path after the addition of the next new line. -/
def add? (p : Trail) : Option Trail :=
  match p.new with
  | b :: new => some ⟨p.passed, p.old, new, extend .added b p.stretches⟩
  | [] => none

def isDone (p : Trail) : Bool := p.old.isEmpty && p.new.isEmpty

/-- The better of two ways to reach a diagonal: the removal, unless the addition starts further
on. -/
def better : (removal addition : Option Trail) → Option Trail
  | some r, some a => some (if r.passed < a.passed then a else r)
  | some r, none => some r
  | none, a => a

end Trail

/-- The furthest path on each of some diagonals. -/
abbrev Fronts := List (Int × Trail)

def Fronts.at? (fronts : Fronts) (diagonal : Int) : Option Trail :=
  (fronts.find? (·.1 == diagonal)).map (·.2)

/-- The diagonals beyond which no path has to be followed: there one of the texts was used up. -/
structure Bounds where
  low : Int
  high : Int
deriving Repr

/-- The furthest path on a diagonal with one edit more. -/
def advance (fronts : Fronts) (diagonal : Int) : Option Trail :=
  (Trail.better ((fronts.at? (diagonal - 1)).bind Trail.remove?)
    ((fronts.at? (diagonal + 1)).bind Trail.add?)).map fun p ↦
      Trail.slide p.passed p.stretches p.old p.new

/-- The bounds after a path was found on a diagonal. -/
def Bounds.narrow (b : Bounds) (diagonal : Int) (p : Trail) : Bounds :=
  ⟨if p.new.isEmpty then max b.low (diagonal + 1) else b.low,
    if p.old.isEmpty then min b.high (diagonal - 1) else b.high⟩

/-- The paths with one edit more, on `count` diagonals at most, of which each second one is reached:
either one of them that is done, or all of them. -/
def grow (fronts : Fronts) (last : Int) : (count : Nat) → (diagonal : Int) → Bounds →
    (found : Fronts) → Except Trail (Fronts × Bounds)
  | 0, _, bounds, found => .ok (found, bounds)
  | count + 1, diagonal, bounds, found =>
    if min bounds.high last < diagonal then .ok (found, bounds)
    else match advance fronts diagonal with
      | none => grow fronts last count (diagonal + 2) bounds found
      | some p =>
        if p.isDone then .error p
        else grow fronts last count (diagonal + 2) (bounds.narrow diagonal p)
          (found ++ [(diagonal, p)])

/-- The first path that is done, with `edits` edits or more; `bound` is the number of edits still
allowed. -/
def search : (bound edits : Nat) → Bounds → Fronts → Option Trail
  | 0, _, _, _ => none
  | bound + 1, edits, bounds, fronts =>
    match grow fronts edits (edits + 1) (max bounds.low (-(edits : Int))) bounds [] with
    | .error p => some p
    | .ok (found, bounds) => search bound (edits + 1) bounds found

/-- Puts a stretch after the others, before a last one of additions if it is one of removals. -/
def settle (settled : List Stretch) (s : Stretch) : List Stretch :=
  match settled with
  | last :: rest =>
    if s.fate = .removed ∧ last.fate = .added then last :: s :: rest else s :: settled
  | [] => [s]

/-- The stretches that turn the old lines into the new ones, with as few edits as possible. Where
both happen, removals stand before additions. -/
def script (old new : List Text) : List Stretch :=
  let total := old.length + new.length
  let origin := Trail.slide 0 [] old new
  let done := if origin.isDone then some origin
    else search total 1 ⟨-(total + 1), total + 1⟩ [(0, origin)]
  match done with
  | some p =>
    ((p.stretches.reverse.map fun s ↦ { s with lines := s.lines.reverse }).foldl settle []).reverse
  | none => []

end Diff

end Declutter
