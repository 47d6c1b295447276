import Declutter.Diff.Script
/-!
The hunks of a comparison: each change with a few kept lines around it. Changes with little between
them share a hunk.
-/

set_option autoImplicit false
set_option relaxedAutoImplicit false

namespace Declutter.Diff

/-- A line of a hunk: one of the texts' lines, or the remark that the line before it ends without a
line feed. -/
inductive HunkLine where
  | line (fate : Fate) (text : Text)
  | unterminated
deriving DecidableEq, Repr

/-- A part of a comparison: where it starts in both texts, counted from one, how many lines of each
it covers, and its lines. -/
structure Hunk where
  oldStart : Nat
  oldLines : Nat
  newStart : Nat
  newLines : Nat
  lines : List HunkLine
deriving DecidableEq, Repr

/-- The number of kept lines that are shown on either side of a change. -/
def context : Nat := 2

/-- The lines of a stretch as a hunk shows them, without their line feeds. -/
def shown (fate : Fate) (lines : List Text) : List HunkLine :=
  lines.map fun t ↦ .line fate (t.dropEndWhile CodeUnit.isNewline)

/-- A hunk that may still grow. -/
structure Draft where
  oldStart : Nat
  newStart : Nat
  lines : List HunkLine

/-- The place in a comparison: the next line of both texts, and the kept lines right before it. -/
structure Spot where
  oldLine : Nat
  newLine : Nat
  behind : List Text

/-- The hunk that a change at a place opens. -/
def Spot.draft (s : Spot) : Draft :=
  let lines := s.behind.drop (s.behind.length - context)
  ⟨s.oldLine - lines.length, s.newLine - lines.length, shown .kept lines⟩

/-- The hunk closed by the kept lines that follow it. -/
def Draft.close (d : Draft) (s : Spot) (following : List Text) : Hunk :=
  let tail := following.take context
  { oldStart := d.oldStart
    oldLines := s.oldLine - d.oldStart + tail.length
    newStart := d.newStart
    newLines := s.newLine - d.newStart + tail.length
    lines := d.lines ++ shown .kept tail }

def endsLine (t : Text) : Bool := t.getLast? == some 10

/-- The last hunk, if it reaches the end of the texts, with the remarks on missing line feeds. With
nothing kept after it, the remark on the old text stands as many lines into the hunk as the hunk
covers of it. -/
def Hunk.remark (old new : Text) (following : List Text) (h : Hunk) : Hunk :=
  let early := following.isEmpty && h.oldLines < h.lines.length
  let lines :=
    if !endsLine old && early && !old.isEmpty then
      h.lines.take h.oldLines ++ .unterminated :: h.lines.drop h.oldLines
    else h.lines
  { h with
    lines := if (!endsLine old && !early) || !endsLine new then lines ++ [.unterminated]
      else lines }

/-- The hunks of the stretches from a place on, where `draft` is the hunk that is open. -/
def hunksFrom (old new : Text) : Spot → (draft : Option Draft) → List Stretch → List Hunk
  | s, some d, [] => [(d.close s []).remark old new []]
  | _, none, [] => []
  | s, draft, ⟨.kept, lines⟩ :: rest =>
    let next : Spot := ⟨s.oldLine + lines.length, s.newLine + lines.length, lines⟩
    match draft with
    | none => hunksFrom old new next none rest
    | some d =>
      if rest.isEmpty then
        let h := d.close s lines
        [if lines.length ≤ context then h.remark old new lines else h]
      else if lines.length ≤ 2 * context then
        hunksFrom old new next (some { d with lines := d.lines ++ shown .kept lines }) rest
      else d.close s lines :: hunksFrom old new next none rest
  | s, draft, ⟨.removed, lines⟩ :: rest =>
    let d := draft.getD s.draft
    hunksFrom old new ⟨s.oldLine + lines.length, s.newLine, []⟩
      (some { d with lines := d.lines ++ shown .removed lines }) rest
  | s, draft, ⟨.added, lines⟩ :: rest =>
    let d := draft.getD s.draft
    hunksFrom old new ⟨s.oldLine, s.newLine + lines.length, []⟩
      (some { d with lines := d.lines ++ shown .added lines }) rest

/-- The hunks of the way from one text to another. -/
def hunks (old new : Text) : List Hunk :=
  hunksFrom old new ⟨1, 1, []⟩ none (script old.lines new.lines)

end Declutter.Diff
