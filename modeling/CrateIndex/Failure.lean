import CrateIndex.Files.Tree
import CrateIndex.Index.Record
import CrateIndex.Json.Reader
import CrateIndex.Log
import CrateIndex.Requirement.Wildcard

/-!
# Failures

Everything that can end the making of a registry, and how it is put to the user.
-/

namespace CrateIndex

/-- What is wrong with a line of the index. -/
inductive LineDefect where
  | malformed (cause : Json.Malformed)
  | defective (cause : RecordDefect)

/-- Why the bytes of a file are no text. -/
inductive FileDefect where
  | unreachable (cause : PathError)
  | undecodable (cause : Utf8.DecodeError)
deriving DecidableEq

/-- What ends the making of a registry. -/
inductive Failure where
  /-- The folder in which a pattern starts is none. -/
  | noLocation (root : Text)
  /-- The folder in which a pattern starts cannot be listed and entered. -/
  | unreadableLocation (root : Text)
  | unreadableFile (path : Text) (cause : FileDefect)
  | badLine (source : Option Text) (line : Nat) (cause : LineDefect)
  /-- A dependency of the record on a line, one that the registry keeps, has an invalid wildcard. -/
  | badWildcard (expr : Text) (source : Option Text) (line : Nat) (name version : Text)
  /-- A path holds the code point zero. -/
  | nulInPath
  /-- A pattern has too many names to be followed one inside the other. -/
  | tooManyNames
  /-- A number has too many digits to be read or written. -/
  | tooLong (cause : Decimal.TooManyDigits)
  /-- The containers of a line are nested too deep. -/
  | tooDeep (container : Json.Container)
  /-- A text of the registry holds a surrogate. -/
  | unencodable (run : Utf8.SurrogateRun)
  | unknownStrategy (shown : Text)
  | unknownFormat (name : Text)
  /-- The name of a threshold stands for something else. -/
  | badThreshold (cause : Log.BadThreshold)

def LineDefect.message : LineDefect → Text
  | .malformed cause => "invalid JSON: " ++ cause.message
  | .defective cause => cause.message

def FileDefect.message (path : Text) : FileDefect → Text
  | .unreachable cause => cause.message path
  | .undecodable cause => cause.message

namespace Failure

/-- A message with the place to which it belongs in front. A line without a path says nothing. -/
def located (path line : Option Text) (message : Text) : Text :=
  match path, line with
  | none, _ => message
  | some p, some n => p ++ ":" ++ n ++ ": " ++ message
  | some p, none => p ++ ": " ++ message

/-- The message of an invalid wildcard; an empty reason is left out. -/
def invalidRange (expr reason : Text) : Text :=
  "Invalid wildcard version range '" ++ expr ++ "'" ++
    (if reason.isEmpty then ([] : Text) else ": " ++ reason)

/-- Where a line stands, for a message about its wildcards. -/
def place (source : Option Text) (line : Nat) : Text :=
  match source with
  | none | some [] => "line " ++ Decimal.text line
  | some path => path ++ ":" ++ Decimal.text line

def message : Failure → Text
  | .noLocation root => "Index location does not exist or is not a directory: " ++ root
  | .unreadableLocation root => "Index location is not readable: " ++ root
  | .unreadableFile path cause => "Failed to read index file " ++ path ++ ": " ++ cause.message path
  | .badLine source line cause => located source (some (Decimal.text line)) cause.message
  | .badWildcard expr source line name version =>
    invalidRange expr (place source line ++ ": " ++ name ++ " " ++ version)
  | .nulInPath => PathError.message [] .holdsNul
  | .tooManyNames => "maximum recursion depth exceeded"
  | .tooLong cause => cause.message
  | .tooDeep container => Json.ReadError.message (.tooDeep container)
  | .unencodable run => run.message
  | .unknownStrategy shown => shown ++ " is not a valid MergeStrategy"
  | .unknownFormat name => "Unsupported output format: " ++ name
  | .badThreshold cause => cause.message

end Failure

end CrateIndex
