import Declutter.Comment.Passage
import Declutter.Edit
/-!
Taking the comments out of a text. A comment alone on its line takes the line along, unless blank
lines are to stay; a comment after code goes with the blanks before it. Literals keep every unit.
-/

set_option autoImplicit false
set_option relaxedAutoImplicit false

namespace Declutter

/-- Which comments stay, and what is left in the place of the others. -/
structure CommentRules where
  /-- Leave an empty line where a comment had the line for itself. -/
  preserveBlankLines : Bool := false
  /-- Keep a line that names the interpreter and a declaration of the encoding. -/
  preserveDirectives : Bool := false
  /-- Keep the comments whose text satisfies this. -/
  keeps : Text → Bool := fun _ ↦ false

namespace Strip

/-- A unit of the name of an encoding. -/
def isEncodingUnit (u : CodeUnit) : Bool :=
  u.isAsciiLetter || u.isDigit || u == '_' || u == '-' || u == '.'

/-- Whether `coding`, a colon or an equals sign, and the name of an encoding start the text. -/
def namesEncoding (t : Text) : Bool :=
  match Text.dropPrefix? "coding" t with
  | some (u :: rest) =>
    (u == ':' || u == '=') && ((rest.dropWhile CodeUnit.isPadding).head?.any isEncodingUnit)
  | _ => false

/-- Whether an encoding is named somewhere before the first line terminator. -/
def namesEncodingLater : Text → Bool
  | [] => false
  | u :: rest => namesEncoding (u :: rest) || (!u.isLineTerminator && namesEncodingLater rest)

/-- Whether a line declares the encoding of its file. -/
def declaresEncoding (line : Text) : Bool :=
  match line.dropWhile (fun u ↦ u.isPadding || u == 12) with
  | u :: rest => u == '#' && namesEncodingLater rest
  | [] => false

/-- Whether the line that starts at an offset is the first or the second line. -/
def isEarlyLine (source : Text) (lineStart : Nat) : Bool :=
  lineStart == 0 || source.lineStart (lineStart - 1) == 0

/-- Whether a comment is a directive: it names the interpreter at the very start of the file, or
declares the encoding on one of the first two lines. -/
def isFileDirective (source : Text) (span : Span) : Bool :=
  let lineStart := source.lineStart span.start
  (span.start == 0 && ("#!" : Text).isPrefixOf source)
    || (isEarlyLine source lineStart && declaresEncoding (source.slice lineStart span.stop))

/-- The offset after the line ending at an offset, if one is there. -/
def afterLineEnding (source : Text) (i : Nat) : Nat :=
  match source.drop i with
  | 13 :: 10 :: _ => i + 2
  | 13 :: _ => i + 1
  | 10 :: _ => i + 1
  | _ => i

/-- The edit that takes a comment out of the source. -/
def removal (source : Text) (preserveBlankLines : Bool) (span : Span) : Edit :=
  let lineStart := source.lineStart span.start
  let before := source.slice lineStart span.start
  if before.isBlank then
    .deletion lineStart (if preserveBlankLines then span.stop else afterLineEnding source span.stop)
  else .deletion (lineStart + before.trimEnd.length) span.stop

/-- Whether a span is a comment that the options let go. -/
def isRemoved (source : Text) (options : CommentRules) (s : Passage) : Bool :=
  s.kind = .comment
    && !(options.preserveDirectives && isFileDirective source s.span)
    && !options.keeps (s.span.read source)

/-- The comments that the options let go, in order. -/
def removed (source : Text) (options : CommentRules) : List Passage :=
  source.passages.filter (isRemoved source options)

end Strip

/-- The text without the comments that the options let go, and these comments. -/
def Text.strip (source : Text) (options : CommentRules) : Except EditFault (Text × List Passage) :=
  do
  let removed := Strip.removed source options
  let text ← Edit.applyAll (removed.map (Strip.removal source options.preserveBlankLines ·.span))
    source
  return (text, removed)

end Declutter
