import Declutter.Yaml.Quoted
/-!
Scalars written as an indented block of lines: literal ones keep their line breaks, folded ones join
their lines as far as these are not indented further.
-/

set_option autoImplicit false
set_option relaxedAutoImplicit false

namespace Declutter.Yaml

/-- What becomes of the line breaks at the end of a block. -/
inductive Chomping where
  | clip | strip | keep
deriving DecidableEq, Repr

/-- What stands after the mark of a block scalar. -/
structure BlockHeader where
  chomping : Option Chomping := none
  /-- The explicit indentation, counted from the indentation around the block. -/
  width : Option Nat := none

/-- The indicators of a block scalar, in any order and each once. -/
def blockHeader : (bound : Nat) → BlockHeader → Cursor → Except Fault (BlockHeader × Cursor)
  | 0, h, c => .ok (h, c)
  | bound + 1, h, c =>
    match c.peek with
    | none => .ok (h, c)
    | some u =>
      if u == '+' || u == '-' then
        if h.chomping.isSome then .error (.repeatedIndicator "a chomping mode identifier")
        else blockHeader bound { h with chomping := some (if u == '+' then .keep else .strip) }
          (c.advance 1)
      else if u == '0' then .error .zeroIndentation
      else if u.isDigit then
        if h.width.isSome then .error (.repeatedIndicator "an indentation width identifier")
        else blockHeader bound { h with width := some u.hexValue } (c.advance 1)
      else .ok (h, c)

/-- A block scalar as far as it has been read. -/
structure BlockReading where
  folded : Bool
  chomping : Chomping
  /-- The indentation of the text, and whether it is settled. -/
  indent : Int
  settled : Bool
  text : Text := []
  /-- Whether a line with text has been read. -/
  started : Bool := false
  /-- The empty lines since then. -/
  empty : Nat := 0
  /-- Whether the last line was indented further than the text. -/
  further : Bool := false

namespace BlockReading

def breaks (n : Nat) : Text := List.replicate n 10

/-- The text at the end of the block. -/
def finish (r : BlockReading) : Text :=
  match r.chomping with
  | .keep => r.text ++ breaks (if r.started then 1 + r.empty else r.empty)
  | .clip => if r.started then r.text ++ [10] else r.text
  | .strip => r.text

/-- What stands between the text so far and the next line; `deeper` says whether that line starts
with a blank. -/
def joint (r : BlockReading) (deeper : Bool) : Text :=
  if !r.folded || deeper then breaks (if r.started then 1 + r.empty else r.empty)
  else if r.further then breaks (r.empty + 1)
  else if r.empty = 0 then (if r.started then " " else [])
  else breaks r.empty

/-- The block with one more line of text. -/
def add (r : BlockReading) (line : Text) : BlockReading :=
  let deeper := line.head?.any CodeUnit.isPadding
  { r with
    text := r.text ++ r.joint deeper ++ line
    started := true
    settled := true
    empty := 0
    further := if r.folded then deeper else r.further }

end BlockReading

/-- The place after the indentation of a line of the block, and what is known of the indentation
then. -/
def BlockReading.measure (r : BlockReading) (c : Cursor) : BlockReading × Cursor :=
  let spaces := (c.span (fun (u : CodeUnit) ↦ u == ' ')).length
  let passed := if r.settled then min spaces r.indent.toNat else spaces
  let c := { c.advance passed with indent := passed }
  (if !r.settled && r.indent < passed then { r with indent := passed } else r, c)

/-- The lines of a block from the end of a line on. -/
def blockLines : (bound : Nat) → BlockReading → Cursor → Except Fault (Text × Cursor)
  | 0, r, c => .ok (r.text, c)
  | bound + 1, r, c =>
    if c.rest.isEmpty then .ok (r.text, c)
    else match c.afterBreak? with
      | none => .error .lineBreakExpected
      | some c =>
        let (r, c) := r.measure { c with indent := 0 }
        if c.holds isBreak then blockLines bound { r with empty := r.empty + 1 } c
        else if c.indent < r.indent then .ok (r.finish, c)
        else
          let line := c.span (!isBreak ·)
          match checked isPrintable line with
          | .ok line => blockLines bound (r.add line) (c.advance line.length)
          | .error fault => .error fault

/-- The block scalar at the place, if there is one, where `indent` is the least indentation of its
text. -/
def block? (indent : Int) (c : Cursor) : Except Fault (Option (Text × Cursor)) := do
  match c.peek with
  | some u =>
    if u == '|' || u == '>' then
      let (h, c) ← blockHeader (c.rest.length + 1) {} (c.advance 1)
      let c := if c.holds CodeUnit.isPadding then
          let c := c.skipWhile CodeUnit.isPadding
          if c.peek == some 35 then c.skipLine else c
        else c
      let r : BlockReading :=
        { folded := u == '>'
          chomping := h.chomping.getD .clip
          indent := match h.width with
            | some w => indent + w - 1
            | none => indent
          settled := h.width.isSome }
      (blockLines (c.rest.length + 1) r c).map some
    else return none
  | none => return none

end Declutter.Yaml
