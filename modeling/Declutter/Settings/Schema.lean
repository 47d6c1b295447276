import Declutter.Settings.Warning
import Declutter.Settings.Basic
import Declutter.Yaml.Value
/-!
The kinds of value that the keys of the settings file take.
-/

set_option autoImplicit false
set_option relaxedAutoImplicit false

namespace Declutter.Schema

/-- What the settings file says, as far as it says something. -/
structure Given where
  functions : Option (List Text) := none
  emptyBlocks : Option Text := none
  removeComments : Option Bool := none
  recursive : Option Bool := none
  backup : Option Bool := none
  backupDirectory : Option (Option Text) := none
  ignore : Option (List Text) := none
  keepDirectives : Option Bool := none
  keepComments : Option (List Text) := none
deriving DecidableEq, Repr

/-- The value itself, or everything that is wrong with it. -/
abbrev Checked (α : Type) := Except (List Issue) α

/-- A value of another kind than expected. -/
def mismatch {α : Type} (place : List Text) (expected : Text) (v : Yaml.Value) : Checked α :=
  .error [⟨place, "Expected " ++ expected ++ ", received " ++ v.kind⟩]

def bool (place : List Text) : Yaml.Value → Checked Bool
  | .bool b => .ok b
  | v => mismatch place "boolean" v

def text (place : List Text) : Yaml.Value → Checked Text
  | .text t => .ok t
  | v => mismatch place "string" v

def textOrNull (place : List Text) : Yaml.Value → Checked (Option Text)
  | .null => .ok none
  | .text t => .ok (some t)
  | v => mismatch place "string" v

/-- Both values, or what is wrong with either. -/
def both {α β γ : Type} (f : α → β → γ) : Checked α → Checked β → Checked γ
  | .ok a, .ok b => .ok (f a b)
  | .ok _, .error issues => .error issues
  | .error issues, .ok _ => .error issues
  | .error issues, .error others => .error (issues ++ others)

/-- The texts in a list, of which the first is at position `i`. -/
def items (place : List Text) : (i : Nat) → List Yaml.Value → Checked (List Text)
  | _, [] => .ok []
  | i, v :: rest => both List.cons (text (place ++ [Text.ofNat i]) v) (items place (i + 1) rest)

def texts (place : List Text) : Yaml.Value → Checked (List Text)
  | .list vs => items place 0 vs
  | v => mismatch place "array" v

/-- A list of names, or one text with commas between the names. -/
def names (place : List Text) (v : Yaml.Value) : Checked (List Text) :=
  let listed := match v with
    | .text t => some (TargetSet.listed t)
    | v => (texts place v).toOption.map fun ts ↦ (ts.map Text.trim).filter (!·.isEmpty)
  match listed with
  | some names => .ok names
  | none => .error [⟨place, "Invalid input"⟩]

/-- The value under a key, if there is one. -/
def optional {α : Type} (read : List Text → Yaml.Value → Checked α)
    (entries : List (Text × Yaml.Value)) (key : Text) : Checked (Option α) :=
  match entries.find? (·.1 == key) with
  | some (_, v) => (read [key] v).map some
  | none => .ok none

/-- Adds what one key says to what the keys before it say. -/
def and {α β : Type} (f : Checked (α → β)) (a : Checked α) : Checked β := both (fun g x ↦ g x) f a

/-- What the entries of the settings file say, or everything that is wrong with them. -/
def given (entries : List (Text × Yaml.Value)) : Checked Given :=
  let start : Checked _ := .ok Given.mk
  let f := and start (optional names entries "functions")
  let f := and f (optional text entries "empty_blocks")
  let f := and f (optional bool entries "remove_comments")
  let f := and f (optional bool entries "recursive")
  let f := and f (optional bool entries "backup")
  let f := and f (optional textOrNull entries "backup_dir")
  let f := and f (optional texts entries "ignore")
  let f := and f (optional bool entries "keep_directives")
  and f (optional texts entries "keep_comments")

/-- The entries of a document that is a mapping. A document that is no compound value counts as
empty. -/
def entries : Option Yaml.Value → Checked (Option (List (Text × Yaml.Value)))
  | some (.list items) => mismatch [] "object" (.list items)
  | some (.instant t) => mismatch [] "object" (.instant t)
  | some v => .ok v.entries?
  | none => .ok none

/-- What was read of a document: its entries, and what they say. -/
structure Read where
  entries : List (Text × Yaml.Value)
  given : Given

/-- What a document says, or everything that is wrong with it; nothing if it counts as empty. -/
def validate (document : Option Yaml.Value) : Checked (Option Read) :=
  match entries document with
  | .error issues => .error issues
  | .ok none => .ok none
  | .ok (some found) => (given found).map fun g ↦ some ⟨found, g⟩

end Declutter.Schema
