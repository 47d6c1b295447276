import Declutter.Pattern.Parser
import Declutter.Yaml.Fault
import Declutter.Policy
/-!
Warnings about the settings file. None of them stops a run.
-/

set_option autoImplicit false
set_option relaxedAutoImplicit false

namespace Declutter

/-- The name of the settings file. -/
def settingsFile : Text := ".pytrim.yml"

/-- A value in the settings file that is not of the kind asked for, and where it stands. -/
structure Issue where
  place : List Text
  message : Text
deriving DecidableEq, Repr

/-- Why a settings file could not be read. -/
inductive ReadFault where
  | isDirectory
deriving DecidableEq, Repr

def ReadFault.message : ReadFault → Text
  | isDirectory => "EISDIR: illegal operation on a directory, read"

/-- A warning about the settings file. -/
inductive Warning where
  | unreadable (fault : ReadFault)
  | malformed (fault : Yaml.Fault)
  | issue (issue : Issue)
  | unknownKey (key : Text) (suggestion : Option Text)
  | unknownPolicy (raw : Text) (suggestion : Option Text)
  | badPattern (pattern : Text) (fault : PatternFault)
deriving DecidableEq, Repr

namespace Warning

/-- The question that offers a suggestion. -/
def hint : Option Text → Text
  | some word => "; did you mean '" ++ word ++ "'?"
  | none => []

def message : Warning → Text
  | unreadable fault =>
    "could not read " ++ settingsFile ++ ": " ++ fault.message ++ ". Using defaults."
  | malformed fault =>
    "could not parse " ++ settingsFile ++ ": " ++ fault.message ++ ". Using defaults."
  | issue i => "config validation error: " ++ Text.join "." i.place ++ ": " ++ i.message
  | unknownKey key suggestion => "unknown config key '" ++ key ++ "'" ++ hint suggestion
  | unknownPolicy raw suggestion =>
    "invalid empty_blocks '" ++ raw ++ "'" ++ hint suggestion ++ ". Using default '" ++
    Policy.fill.word
      ++ "'."
  | badPattern pattern fault =>
    "ignoring keep_comments pattern '" ++ pattern ++ "': Invalid regular expression: /" ++
    pattern ++ "/: "
      ++ fault.message

/-- What a warning puts out. -/
def line (w : Warning) : Text := "[pytrim] Warning: " ++ w.message ++ "\n"

end Warning

/-- The patterns among some texts, and a warning for each text that is none. -/
def Pattern.compileAll (texts : List Text) : List Pattern × List Warning :=
  texts.foldr (fun t (patterns, warnings) ↦
    match Pattern.ofText t with
    | .ok p => (p :: patterns, warnings)
    | .error fault => (patterns, .badPattern t fault :: warnings)) ([], [])

end Declutter
