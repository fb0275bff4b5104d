import CrateIndex.Text.Basic

/-!
# Log records

What the program reports while it runs. Every record is made, whatever the level; which of them
are shown is decided when they are written.
-/

namespace CrateIndex.Log

/-- How much a record matters. -/
inductive Level where
  | debug
  | info
  | warning
  | error
  | critical
deriving DecidableEq

namespace Level

def name : Level → Text
  | .debug => "DEBUG"
  | .info => "INFO"
  | .warning => "WARNING"
  | .error => "ERROR"
  | .critical => "CRITICAL"

/-- The weight of a level on the scale of thresholds. -/
def severity : Level → Nat
  | .debug => 10
  | .info => 20
  | .warning => 30
  | .error => 40
  | .critical => 50

end Level

/-- The part of the program that makes a record. -/
inductive Source where
  | program
  | commandLine
  | requirements
  | indexLines
  | search
  | merging
  | document
deriving DecidableEq

/-- The name under which a part reports. -/
def Source.name : Source → Text
  | .program => "root"
  | .commandLine => "cargo_import"
  | .requirements => "versioning.desugar"
  | .indexLines => "registry.cargo.index_parser"
  | .search => "registry.cargo.discovery"
  | .merging => "registry.aggregate"
  | .document => "output.serializer"

/-- What a record carries beside its message. -/
inductive Value where
  | text (t : Text)
  | count (n : Nat)
deriving DecidableEq

/-- The fields that have a value. -/
def details {α : Type} (fields : List (Text × Option α)) : List (Text × α) :=
  fields.filterMap fun (name, value) => value.map (name, ·)

/-- One record. -/
structure Entry where
  level : Level
  source : Source
  message : Text
  details : List (Text × Value) := []
deriving DecidableEq

namespace Entry

/-- The record weighs enough to be shown. -/
def isShown (threshold : Nat) (e : Entry) : Bool := threshold ≤ e.level.severity

/-- The line on the error stream. -/
def line (e : Entry) : Text := "[" ++ e.level.name ++ "] " ++ e.message ++ "\n"

/-- The line in a log file, with the time in front. -/
def fileLine (stamp : Text) (e : Entry) : Text :=
  stamp ++ " " ++ e.level.name ++ " " ++ e.source.name ++ " " ++ e.message ++ "\n"

end Entry

/-- The names of thresholds. A threshold of zero shows everything. -/
def thresholds : List (Text × Nat) :=
  [("DEBUG", 10), ("INFO", 20), ("WARNING", 30), ("WARN", 30), ("ERROR", 40), ("CRITICAL", 50),
    ("FATAL", 50), ("NOTSET", 0)]

/-- The threshold where none is set. -/
def defaultThreshold : Nat := Level.warning.severity

/-- What stands under the name of a threshold and is none: the layout of a record, as a text, and
the table of the styles in which a layout can be written. -/
inductive BadThreshold where
  | layout
  | styles
deriving DecidableEq

def BadThreshold.message : BadThreshold → Text
  | .layout => "Unknown level: '%(levelname)s:%(name)s:%(message)s'"
  | .styles =>
    let style (mark name layout : Text) : Text :=
      "'" ++ mark ++ "': (<class 'logging." ++ name ++ "'>, '" ++ layout ++ "')"
    "Level not an integer or a valid string: \x7b" ++ Text.join ", " [
      style "%" "PercentStyle" "%(levelname)s:%(name)s:%(message)s",
      style "\x7b" "StrFormatStyle" "\x7blevelname\x7d:\x7bname\x7d:\x7bmessage\x7d",
      style "$" "StringTemplateStyle" "$\x7blevelname\x7d:$\x7bname\x7d:$\x7bmessage\x7d"] ++
      "\x7d"

/-- The names that are looked up along with those of thresholds, and name something else. -/
def otherNames : List (Text × BadThreshold) := [("BASIC_FORMAT", .layout), ("_STYLES", .styles)]

/-- The threshold of a name; a name that means nothing gives the usual one. -/
def threshold (name : Text) : Except BadThreshold Nat :=
  match otherNames.lookup name with
  | some found => .error found
  | none => .ok ((thresholds.lookup name).getD defaultThreshold)

end CrateIndex.Log
