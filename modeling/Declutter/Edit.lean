import Declutter.Text.Basic
/-!
Edits of a text: each replaces a range of offsets by a new text. A list of edits applies as one step
if every edit lies inside the text and no two overlap; it is carried out from the last edit to the
first, so that the offsets of the edits still to come stay valid.
-/

set_option autoImplicit false
set_option relaxedAutoImplicit false

namespace Declutter

/-- Puts `text` in the place of the offsets from `start` up to `stop`. -/
structure Edit where
  start : Int
  stop : Int
  text : Text
deriving DecidableEq, Repr

/-- Why a list of edits does not fit a text. -/
inductive EditFault where
  | outside (start stop : Int)
  | overlapping (offset : Int)
deriving DecidableEq, Repr

namespace EditFault

def message : EditFault → Text
  | outside start stop =>
    "Edit [" ++ Text.ofInt start ++ ", " ++ Text.ofInt stop ++ ") is outside the source"
  | overlapping offset => "Overlapping edits at offset " ++ Text.ofInt offset

end EditFault

namespace Edit

/-- The edit that takes away the offsets from `start` up to `stop`. -/
def deletion (start stop : Nat) : Edit := ⟨start, stop, []⟩

/-- The order of edits: by start, then by stop. -/
def le (a b : Edit) : Bool := a.start < b.start || (a.start == b.start && a.stop ≤ b.stop)

/-- The edit carried out alone. -/
def splice (e : Edit) (t : Text) : Text :=
  t.take e.start.toNat ++ e.text ++ t.drop e.stop.toNat

/-- The first fault of a sorted list of edits, where `floor` is the end of the edit before, if there
is one. An edit outside the text is noticed before an overlap. -/
def firstFault (length : Nat) : (floor : Option Int) → List Edit → Option EditFault
  | _, [] => none
  | floor, e :: rest =>
    if e.start < 0 ∨ (length : Int) < e.stop ∨ e.stop < e.start then some (.outside e.start e.stop)
    else if floor.any (e.start < ·) then some (.overlapping e.start)
    else firstFault length (some e.stop) rest

/-- All edits carried out on the text, or the first fault in the order of their offsets. -/
def applyAll (edits : List Edit) (t : Text) : Except EditFault Text :=
  let sorted := edits.mergeSort le
  match firstFault t.length none sorted with
  | some fault => .error fault
  | none => .ok (sorted.foldr splice t)

end Edit

end Declutter
