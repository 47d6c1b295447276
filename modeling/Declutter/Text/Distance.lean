import Declutter.Text.LowerCase
/-!
The edit distance of two texts, by the table of distances between their beginnings, and the
suggestion of the nearest of several words.
-/

set_option autoImplicit false
set_option relaxedAutoImplicit false

namespace Declutter.Text

/-- The rest of a row of the table: `left` is the entry before it, `diagonal` the entry above that,
and `above` holds the entries of the row before. -/
def distanceEntries (u : CodeUnit) : (left diagonal : Nat) → Text → (above : List Nat) → List Nat
  | left, diagonal, v :: t, above :: row =>
    let here := if u = v then diagonal else 1 + min (min above left) diagonal
    here :: distanceEntries u here above t row
  | _, _, _, _ => []

/-- The row of the table after one more unit of the first text. -/
def nextDistances (t : Text) (row : List Nat) (u : CodeUnit) : List Nat :=
  match row with
  | [] => []
  | first :: rest => (first + 1) :: distanceEntries u (first + 1) first t rest

/-- The distances of `s` from each beginning of `t`, the shortest beginning first. -/
def distances (s t : Text) : List Nat := s.foldl (nextDistances t) (List.range (t.length + 1))

/-- The number of units to insert, delete or replace on the way from one text to the other. -/
def distance (s t : Text) : Nat := ((distances s t).getLast?).getD 0

/-- The greatest distance at which a word is still suggested. -/
def suggestionReach : Nat := 3

/-- The better of the best candidate so far and the next one; of two as good the first stays. -/
def nearer (input : Text) (best : Option (Text × Nat)) (candidate : Text) : Option (Text × Nat) :=
  let d := distance input.toLower candidate.toLower
  if d ≤ suggestionReach && best.all (d < ·.2) then some (candidate, d) else best

/-- The first of the candidates nearest to the input, if one is near enough; letter case does not
count. -/
def suggestion? (input : Text) (candidates : List Text) : Option Text :=
  (candidates.foldl (nearer input) none).map (·.1)

end Declutter.Text
