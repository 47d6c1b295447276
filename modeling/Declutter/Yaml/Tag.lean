import Declutter.Yaml.Cursor
import Declutter.Yaml.Scalar
import Declutter.Text.Utf8
/-!
Tags: how they are written, and what a tagged node stands for.
-/

set_option autoImplicit false
set_option relaxedAutoImplicit false

namespace Declutter.Yaml

/-- The form of a node. -/
inductive Kind where
  | scalar | sequence | mapping
deriving DecidableEq, Repr

namespace Tag

/-- What the tags of the standard types start with. -/
def standard : Text := "tag:yaml.org,2002:"

/-- The tag that leaves the choice of the type to the text of the node. -/
def implicit : Text := "?"

/-- The tag that leaves the node as it is written. -/
def literal : Text := "!"

def merge : Text := standard ++ ("merge" : Text)

/-! ### How tags are written -/

/-- A unit that may stand in a tag after its first one. -/
def isUriUnit (u : CodeUnit) : Bool :=
  u.isAsciiLetter || u.isDigit || ("-#;/?:@&=+$,_.!~*'()[]" : Text).contains u

/-- Units and bytes in hexadecimal that may stand in a tag after its first unit. -/
def isUriTail : Text → Bool
  | [] => true
  | 37 :: a :: b :: rest => a.isHexDigit && b.isHexDigit && isUriTail rest
  | u :: rest => isUriUnit u && isUriTail rest

def isUri : Text → Bool
  | [] => false
  | u :: rest => !isFlowMark u && isUriTail rest

/-- `!`, `!!`, or a name of letters and hyphens between exclamation marks. -/
def isHandle (t : Text) : Bool :=
  t == "!" || t == "!!"
    || match t with
      | 33 :: rest =>
        let name := rest.takeWhile fun (u : CodeUnit) ↦ u.isAsciiLetter || u == '-'
        !name.isEmpty && rest.drop name.length == "!"
      | _ => false

/-- The text of a tag whose bytes in hexadecimal, of which `pending` have just been read, are those
of UTF-8. -/
def unescape? (pending : List UInt8) : Text → Option Text
  | 37 :: a :: b :: rest =>
    if a.isHexDigit && b.isHexDigit then
      unescape? (pending ++ [UInt8.ofNat (16 * a.hexValue + b.hexValue)]) rest
    else none
  | 37 :: _ => none
  | u :: rest => do return (← Utf8.decode? pending) ++ u :: (← unescape? [] rest)
  | [] => Utf8.decode? pending

/-- The prefix for which a handle stands. -/
def expand (handles : List (Text × Text)) (handle : Text) : Except Fault Text :=
  match handles.find? (·.1 == handle) with
  | some (_, expansion) => .ok expansion
  | none =>
    if handle = "!" then .ok handle
    else if handle = "!!" then .ok standard
    else .error (.badTag ("undeclared tag handle \"" ++ handle ++ "\""))

/-- The name in a tag, without its bytes in hexadecimal. -/
def name (t : Text) : Except Fault Text :=
  if !t.isEmpty && !isUri t then .error (.badTag ("tag name cannot contain such characters: " ++ t))
  else match unescape? [] t with
    | some t => .ok t
    | none => .error (.badTag ("tag name is malformed: " ++ t))

/-- A tag in angle brackets, at the place after the first of them. -/
def verbatim (c : Cursor) : Except Fault (Text × Cursor) := do
  let t := c.rest.take 1 ++ (c.rest.drop 1).takeWhile (· != 62)
  let after := c.advance t.length
  if after.rest.isEmpty then throw (.unfinished "verbatim tag")
  return (← name t, after.advance 1)

/-- A tag of a handle and a name, at the place after the first exclamation mark. -/
def shorthand (handles : List (Text × Text)) (c : Cursor) : Except Fault (Text × Cursor) := do
  let word := c.span (!isSpace ·)
  let after := c.advance word.length
  let first := word.takeWhile (· != 33)
  let (handle, suffix) :=
    if first.length = word.length then (("!" : Text), word)
    else ("!" ++ first ++ ("!" : Text), word.drop (first.length + 1))
  if !isHandle handle then throw (.badTag "named tag handle cannot contain such characters")
  if suffix.contains 33 then throw (.badTag "tag suffix cannot contain exclamation marks")
  if suffix.any isFlowMark then
    throw (.badTag "tag suffix cannot contain flow indicator characters")
  let suffix ← name suffix
  return ((← expand handles handle) ++ suffix, after)

/-- The tag at the place, if there is one. -/
def read? (handles : List (Text × Text)) (c : Cursor) : Except Fault (Option (Text × Cursor)) :=
  match c.rest with
  | 33 :: 60 :: _ => (verbatim (c.advance 2)).map some
  | 33 :: _ => (shorthand handles (c.advance 1)).map some
  | _ => .ok none

/-! ### What tagged nodes stand for -/

def base64Digits : Text := "ABCDEFGHIJKLMNOPQRSTUVWXYZabcdefghijklmnopqrstuvwxyz0123456789+/"

/-- The bytes of groups of four digits with six bits each; a last group may be shorter. -/
def base64Groups : List Nat → List UInt8
  | a :: b :: c :: d :: rest =>
    UInt8.ofNat (4 * a + b / 16) :: UInt8.ofNat (16 * b + c / 4) :: UInt8.ofNat (64 * c + d)
      :: base64Groups rest
  | [a, b, c] => [UInt8.ofNat (4 * a + b / 16), UInt8.ofNat (16 * b + c / 4)]
  | [a, b] => [UInt8.ofNat (4 * a + b / 16)]
  | _ => []

/-- The bytes that a text writes in base 64, where line breaks do not count. Without a digit there
are three zero bytes. -/
def base64? (t : Text) : Option (List UInt8) := do
  let body := t.filter (!isBreak ·)
  let values ← (body.filter fun (u : CodeUnit) ↦ u != '=').mapM fun u ↦
    base64Digits.findIdx? (· == u)
  if body.length % 4 = 0 then some (if values.isEmpty then [0, 0, 0] else base64Groups values)
  else none

/-- What a scalar of a standard type stands for; a node without text is null. -/
def scalar? (type : Text) (v : Value) : Option Value :=
  match v with
  | .text t =>
    if type = "str" then some v
    else if type = "null" then (if Scalar.isNull t then some .null else none)
    else if type = "bool" then (Scalar.bool? t).map .bool
    else if type = "int" then (Scalar.integer? t).map .number
    else if type = "float" then (Scalar.fractional? t).map .number
    else if type = "timestamp" then (Scalar.instant? t).map .instant
    else if type = "merge" then (if t = Scalar.mergeSign then some v else none)
    else if type = "binary" then (base64? t).map .bytes
    else none
  | .null =>
    if type = "str" then some (.text [])
    else if type = "null" ∨ type = "merge" then some .null
    else none
  | _ => if type = "str" then some v else none

/-- The single entry of each mapping in a list. -/
def singleEntries? (items : List Value) : Option (List (Text × Value)) :=
  items.mapM fun
    | .map [entry] => some entry
    | _ => none

/-- What a sequence of a standard type stands for. -/
def sequence? (type : Text) (v : Value) : Option Value :=
  match v with
  | .list items =>
    if type = "seq" then some v
    else do
      let entries ← singleEntries? items
      let keys := entries.map (·.1)
      if type = "omap" then
        if keys.eraseDups.length = keys.length then some v else none
      else if type = "pairs" then some (.list (entries.map fun (k, v) ↦ .list [.text k, v]))
      else none
  | .null => some (.list [])
  | _ => some v

/-- What a mapping of a standard type stands for. -/
def mapping? (type : Text) (v : Value) : Option Value :=
  match v with
  | .map entries =>
    if type = "map" ∨ entries.all (fun | (_, .null) => true | _ => false) then some v else none
  | .null => some (.map [])
  | _ => some v

/-- The standard types of each form. -/
def scalarTypes : List Text :=
  ["str", "null", "bool", "int", "float", "timestamp", "merge", "binary"]

def sequenceTypes : List Text := ["seq", "omap", "pairs"]

def mappingTypes : List Text := ["map", "set"]

/-- What a node with an explicit tag stands for, where `kind` is the form of the node, if it has
one. -/
def apply (tag : Text) (kind : Option Kind) (v : Value) : Except Fault Value :=
  let resolved (v : Option Value) : Except Fault Value :=
    match v with
    | some v => .ok v
    | none => .error (.unresolvedTag tag)
  let fits (k : Kind) : Bool := kind.all (· == k)
  match Text.dropPrefix? standard tag with
  | none => .error (.unknownTag tag)
  | some type =>
    if fits .scalar && scalarTypes.contains type then resolved (scalar? type v)
    else if fits .sequence && sequenceTypes.contains type then resolved (sequence? type v)
    else if fits .mapping && mappingTypes.contains type then resolved (mapping? type v)
    else .error (.unknownTag tag)

end Tag

end Declutter.Yaml
