import Declutter.Number
import Declutter.Clock
/-!
The values that a YAML document can hold, and the text of a value where it is the key of a mapping.
-/

set_option autoImplicit false
set_option relaxedAutoImplicit false

namespace Declutter.Yaml

/-- A value of a document. The keys of a mapping are texts, each once, in the order of their first
appearance. -/
inductive Value where
  | null
  | bool (b : Bool)
  | number (n : Number)
  | text (t : Text)
  | instant (t : Instant)
  | bytes (bs : List UInt8)
  | list (items : List Value)
  | map (entries : List (Text × Value))
deriving Repr

namespace Value

instance : Inhabited Value := ⟨null⟩

/-- The word for the kind of a value. -/
def kind : Value → Text
  | null => "null"
  | bool _ => "boolean"
  | number .notANumber => "nan"
  | number _ => "number"
  | text _ => "string"
  | instant _ => "date"
  | bytes _ => "object"
  | list _ => "array"
  | map _ => "object"

/-- The text of a value that is a key, or an item of a list that is one. -/
def itemText : Value → Text
  | null => "null"
  | bool b => if b then "true" else "false"
  | number n => n.text
  | text t => t
  | instant t => t.words
  | bytes bs => Text.join "," (bs.map fun b ↦ Text.ofNat b.toNat)
  | list _ => []
  | map _ => "[object Object]"

/-- The text of a value as a key. A list is the texts of its items with commas between them, where
nothing stands for a null; a list within a list is no key. -/
def keyText? : Value → Option Text
  | list items =>
    if items.any fun | list _ => true | _ => false then none
    else some (Text.join "," (items.map fun | null => ([] : Text) | item => item.itemText))
  | v => some v.itemText

/-- Whether a key is the decimal form of a number below 2³² - 1. -/
def isIndex (key : Text) : Bool :=
  let n := key.foldl (fun n u ↦ 10 * n + (u.toNat - 48)) 0
  !key.isEmpty && key.length ≤ 10 && key.all CodeUnit.isDigit && key == Text.ofNat n &&
    n < 4294967295

/-- The entries with those in front whose keys are indices, by number. -/
def indicesFirst (entries : List (Text × Value)) : List (Text × Value) :=
  let shorter (a b : Text × Value) : Bool :=
    a.1.length < b.1.length || (a.1.length == b.1.length && !Text.before b.1 a.1)
  (entries.filter (isIndex ·.1)).mergeSort shorter ++ entries.filter (!isIndex ·.1)

/-- Items as entries under their positions. -/
def numbered (items : List Value) : List (Text × Value) :=
  (items.zipIdx).map fun (item, i) ↦ (Text.ofNat i, item)

/-- What a value holds under keys; only a compound value holds something. -/
def entries? : Value → Option (List (Text × Value))
  | map entries => some (indicesFirst entries)
  | list items => some (numbered items)
  | bytes bs => some (numbered (bs.map fun b ↦ .number (.finite false b.toNat 0)))
  | instant _ => some []
  | _ => none

end Value

end Declutter.Yaml
