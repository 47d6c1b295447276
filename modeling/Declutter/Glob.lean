import Declutter.Path
import Declutter.Pattern.Parser
/-!
Patterns of paths to pass over. A pattern is the name of a segment, the path of a file or directory,
or a wildcard pattern; the latter is matched with the whole path if it has a separator, and with the
last segment if it has none.
-/

set_option autoImplicit false
set_option relaxedAutoImplicit false

namespace Declutter.Glob

/-- A part of a wildcard pattern. -/
inductive Token where
  /-- `**/`: nothing, or anything within a line that ends in a separator. -/
  | folders
  /-- `**`: anything within a line. -/
  | anything
  /-- `*`: any run of units that has no separator. -/
  | run
  /-- `?`: one unit that is no separator. -/
  | one
  | unit (u : CodeUnit)
deriving DecidableEq, Repr

/-- The parts of a pattern, each as long as it can be. -/
def tokens : Text → List Token
  | 42 :: 42 :: 47 :: rest => .folders :: tokens rest
  | 42 :: 42 :: rest => .anything :: tokens rest
  | 42 :: rest => .run :: tokens rest
  | 63 :: rest => .one :: tokens rest
  | u :: rest => .unit u :: tokens rest
  | [] => []

/-- The units that do not stand for themselves in a regular expression. -/
def isSpecial (u : CodeUnit) : Bool := (".+^$\x7b\x7d()|[]\\" : Text).contains u

/-- The regular expression of a part. -/
def Token.expression : Token → Text
  | folders => "(?:.*/)?"
  | anything => ".*"
  | run => "[^/]*"
  | one => "[^/]"
  | unit u => if isSpecial u then ['\\', u] else [u]

/-- The regular expression of a pattern. -/
def expression (pattern : Text) : Text := "^" ++ (tokens pattern).flatMap Token.expression ++ "$"

/-- Whether a pattern has a wildcard. -/
def isWild (pattern : Text) : Bool := pattern.contains 42 || pattern.contains 63

/-- The pattern without one separator at its end. -/
def bare (pattern : Text) : Text :=
  if pattern.getLast? == some Path.separator then pattern.dropLast else pattern

/-- Whether a path is, or lies in, the file or directory that the pattern names. -/
def covers (pattern : Text) (path : Path) : Bool :=
  path == bare pattern || (bare pattern ++ [Path.separator]).isPrefixOf path

/-- What a wildcard pattern is matched with: the path, or its last segment if the pattern has no
separator. -/
def subject (pattern : Text) (path : Path) : Text :=
  if pattern.contains Path.separator then path else (path.pieces.getLast?).getD []

/-- Whether the wildcard pattern generates what it is matched with. -/
def generates? (pattern : Text) (path : Path) : Except PatternFault Bool := do
  let e ← Pattern.ofText (expression pattern)
  return e.occursIn (subject pattern path)

/-- Whether a pattern speaks of a relative path. -/
def applies? (path : Path) (pattern : Text) : Except PatternFault Bool :=
  if path.pieces.contains pattern || covers pattern path then .ok true
  else if isWild pattern then generates? pattern path
  else .ok false

/-- Whether one of the patterns speaks of a relative path: the first that does settles it. -/
def isIgnored? : List Text → Path → Except PatternFault Bool
  | [], _ => .ok false
  | pattern :: rest, path => do
    if ← applies? path pattern then return true else isIgnored? rest path

/-- Whether one of the patterns speaks of a relative path. Every pattern has a regular expression,
so that there always is an answer. -/
def isIgnored (patterns : List Text) (path : Path) : Bool :=
  match isIgnored? patterns path with
  | .ok answer => answer
  | .error _ => false

end Declutter.Glob
