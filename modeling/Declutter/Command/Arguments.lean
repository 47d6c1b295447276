import Declutter.Run.Plan
/-!
The arguments of the command. A flag is written with its word after two hyphens, or with its letter
after one; a value follows as the next argument, or after an equals sign.
-/

set_option autoImplicit false
set_option relaxedAutoImplicit false

namespace Declutter

/-- A flag of the command. -/
inductive Flag where
  | functions | removeComments | recursive | dryRun | noBackup | emptyBlocks | backupDirectory
  | keepDirectives | verbose | quiet | help | version
deriving DecidableEq, Repr

namespace Flag

def all : List Flag :=
  [functions, removeComments, recursive, dryRun, noBackup, emptyBlocks, backupDirectory,
    keepDirectives, verbose, quiet, help, version]

/-- The word of a flag, without the hyphens. -/
def word : Flag → Text
  | functions => "functions"
  | removeComments => "remove-comments"
  | recursive => "recursive"
  | dryRun => "dry-run"
  | noBackup => "no-backup"
  | emptyBlocks => "empty-blocks"
  | backupDirectory => "backup-dir"
  | keepDirectives => "keep-directives"
  | verbose => "verbose"
  | quiet => "quiet"
  | help => "help"
  | version => "version"

/-- The letter of a flag that has one. -/
def letter? : Flag → Option Text
  | functions => some "f"
  | removeComments => some "c"
  | recursive => some "r"
  | dryRun => some "d"
  | noBackup => some "n"
  | emptyBlocks => some "e"
  | help => some "h"
  | version => some "v"
  | backupDirectory | keepDirectives | verbose | quiet => none

def takesValue : Flag → Bool
  | functions | emptyBlocks | backupDirectory => true
  | _ => false

def ofWord? (word : Text) : Option Flag := all.find? (·.word = word)

def ofLetter? (letter : Text) : Option Flag := all.find? (·.letter? = some letter)

/-- The names under which the table of letters finds a function that it inherits and that is named
alike. -/
def inheritedNames : List Text :=
  ["toString", "toLocaleString", "valueOf", "hasOwnProperty", "isPrototypeOf",
    "propertyIsEnumerable", "__defineGetter__", "__defineSetter__", "__lookupGetter__",
    "__lookupSetter__"]

/-- How an inherited function is written out. -/
def functionText (name : Text) : Text := "function " ++ name ++ "() \x7b [native code] \x7d"

/-- How an argument after one hyphen is named where it is no letter of a flag. What the table of
letters inherits is taken for the word of a flag. -/
def unknownName (letter : Text) : Text :=
  if letter = "constructor" then "--" ++ functionText "Object"
  else if letter = "__proto__" then "--[object Object]"
  else if inheritedNames.contains letter then "--" ++ functionText letter
  else "-" ++ letter

end Flag

/-- Why arguments are rejected. -/
inductive UsageFault where
  | unknownFlag (written : Text)
  | unexpectedValue (flag : Flag)
  | missingValue (flag : Flag)
  | pathCount (n : Nat)
deriving DecidableEq, Repr

def UsageFault.message : UsageFault → Text
  | unknownFlag written => "unknown flag " ++ written
  | unexpectedValue flag => "--" ++ flag.word ++ " does not take a value"
  | missingValue flag => "--" ++ flag.word ++ " requires a value"
  | pathCount n => "expected exactly one path, got " ++ Text.ofNat n

/-- The flags that were given, each once with its last value, and the other arguments in order. A
flag that takes no value has the value `true`. -/
structure Arguments where
  flags : List (Flag × Text) := []
  positional : List Text := []
deriving DecidableEq, Repr

/-- What a single argument is. -/
inductive Argument where
  | positional
  | flag (flag : Flag) (value : Option Text)
deriving DecidableEq, Repr

namespace Arguments

/-- The value of a flag, if it was given. -/
def value? (a : Arguments) (flag : Flag) : Option Text := (a.flags.find? (·.1 = flag)).map (·.2)

def has (a : Arguments) (flag : Flag) : Bool := (a.value? flag).isSome

/-- Sets the value of a flag. -/
def set (a : Arguments) (flag : Flag) (value : Text) : Arguments :=
  { a with
    flags :=
      if a.has flag then a.flags.map fun f ↦ if f.1 = flag then (flag, value) else f
      else a.flags ++ [(flag, value)] }

def yes : Text := "true"

/-- The flag with a word, and the value after an equals sign. -/
def readWord (body : Text) : Except UsageFault Argument :=
  let word := body.takeWhile fun (u : CodeUnit) ↦ u != '='
  match Flag.ofWord? word with
  | none => .error (.unknownFlag ("--" ++ word))
  | some flag => .ok (.flag flag ((body.drop word.length).tail?))

/-- What an argument is, taken for itself. -/
def readOne : Text → Except UsageFault Argument
  | 45 :: 45 :: body => readWord body
  | 45 :: u :: rest =>
    match Flag.ofLetter? (u :: rest) with
    | some flag => .ok (.flag flag none)
    | none => .error (.unknownFlag (Flag.unknownName (u :: rest)))
  | _ => .ok .positional

/-- The value of a flag that came with the flag itself. -/
def inlineValue (flag : Flag) (value : Text) : Except UsageFault Text :=
  if !flag.takesValue then .error (.unexpectedValue flag)
  else if value.isEmpty then .error (.missingValue flag)
  else .ok value

/-- Reads on in the arguments. -/
def readFrom : List Text → Arguments → Except UsageFault Arguments
  | [], a => .ok a
  | argument :: rest, a =>
    match readOne argument with
    | .error fault => .error fault
    | .ok .positional => readFrom rest { a with positional := a.positional ++ [argument] }
    | .ok (.flag flag (some value)) =>
      match inlineValue flag value with
      | .error fault => .error fault
      | .ok value => readFrom rest (a.set flag value)
    | .ok (.flag flag none) =>
      if flag.takesValue then
        match rest with
        | [] => .error (.missingValue flag)
        | value :: others =>
          if value.head? = some 45 then .error (.missingValue flag)
          else readFrom others (a.set flag value)
      else readFrom rest (a.set flag yes)

/-- The arguments of the command, read from the first to the last. -/
def read (arguments : List Text) : Except UsageFault Arguments := readFrom arguments {}

/-- The word for the messages that are shown: flags go before what was set. -/
def logLevel (a : Arguments) (usual : Option Text) : Option Text :=
  if a.has .verbose then some LogLevel.debug.word
  else if a.has .quiet then some LogLevel.error.word
  else usual

/-- Reads the arguments. The word for the messages that are shown, which was `usual` before, is set
only if all of them can be read. -/
def parse (arguments : List Text) (usual : Option Text) :
    Except UsageFault Arguments × Option Text :=
  match read arguments with
  | .error fault => (.error fault, usual)
  | .ok a => (.ok a, a.logLevel usual)

/-- What the arguments ask for of a path. -/
def request (a : Arguments) (path : Path) : Request :=
  let flag (f : Flag) : Option Bool := if a.has f then some true else none
  { path
    functions := (a.value? .functions).map TargetSet.listed
    emptyBlocks := a.value? .emptyBlocks
    removeComments := flag .removeComments
    recursive := flag .recursive
    dryRun := flag .dryRun
    backup := if a.has .noBackup then some false else none
    backupDirectory := a.value? .backupDirectory
    keepDirectives := flag .keepDirectives }

end Arguments

end Declutter
