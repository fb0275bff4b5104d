import CrateIndex.Failure
import CrateIndex.Index.Name
import CrateIndex.Registry.Basic
import CrateIndex.Requirement.Reported
import CrateIndex.Text.Blank
import CrateIndex.Text.Lines

/-!
# Index lines

The lines of an index file, read one after the other into a registry. Blank lines count but say
nothing. The first line that cannot be read ends the reading.
-/

namespace CrateIndex

/-- The ranges of dependencies, in order. A later dependency of the same name gives the range, the
first the place. -/
def Record.rangesFrom (ranges : Dependencies) :
    List Dependency → Logged Wildcard.Failure Dependencies
  | [] => pure ranges
  | d :: ds => do
    let range ← Requirement.toRange d.requirement
    rangesFrom (ranges.insert (registryName d.name) range) ds

/-- The ranges of the dependencies that the registry keeps. -/
def Record.ranges (r : Record) : Logged Wildcard.Failure Dependencies := rangesFrom ∅ r.needed

/-- The registry with the ranges of one version set. -/
def Registry.setVersion (r : Registry) (record : Record) (ranges : Dependencies) : Registry :=
  let name := registryName record.name
  r.insert name (((r.get? name).getD ∅).insert (withoutBuildTag record.version) ranges)

/-- The number of versions of all packages. -/
def Registry.versionCount (r : Registry) : Nat := (r.entries.flatMap fun e => e.2.entries).length

namespace Index

/-- The record of a line. Containers may stand inside one another down to `depth`. -/
def readRecord (depth : Nat) (source : Option Text) (line : Nat) (s : Text) :
    Except Failure Record :=
  match Json.read depth s with
  | .error (.malformed cause) => .error (.badLine source line (.malformed cause))
  | .error (.tooLong cause) => .error (.tooLong cause)
  | .error (.tooDeep container) => .error (.tooDeep container)
  | .ok v => (Record.ofJson v).mapError fun d => .badLine source line (.defective d)

/-- The failure of a requirement on a line. -/
def wildcardFailure (source : Option Text) (line : Nat) (r : Record) : Wildcard.Failure → Failure
  | .defect expr _ => .badWildcard expr source line r.name r.version
  | .unwritable cause => .tooLong cause

/-- The registry with one line read into it. -/
def readLine (depth : Nat) (source : Option Text) (line : Nat) (registry : Registry) (s : Text) :
    Logged Failure Registry :=
  if s.isBlank then pure registry
  else do
    let record ← Logged.ofExcept (readRecord depth source line s)
    let ranges ← record.ranges.mapError (wildcardFailure source line record)
    return registry.setVersion record ranges

/-- The registry with lines read into it, the first of them with the number `line`. -/
def readLines (depth : Nat) (source : Option Text) (line : Nat) (registry : Registry) :
    List Text → Logged Failure Registry
  | [] => pure registry
  | s :: rest => do
    let registry ← readLine depth source line registry s
    readLines depth source (line + 1) registry rest

/-- The record of a source that was read to its end. -/
def entry (source : Option Text) (registry : Registry) : Log.Entry where
  level := .debug
  source := .indexLines
  message := "Parsed index content"
  details := Log.details [("component", some (.text "index_parser")), ("path", source.map .text),
    ("count", some (.count registry.versionCount))]

/-- The registry of lines; `source` is named in messages. -/
def ofLines (depth : Nat) (source : Option Text) (lines : List Text) :
    Logged Failure Registry := do
  let registry ← readLines depth source 1 ∅ lines
  Logged.note (entry source registry)
  return registry

/-- The text of a file's bytes, or of the failure to get them. -/
def fileText (path : Text) : Except PathError (List UInt8) → Except Failure Text
  | .error .holdsNul => .error .nulInPath
  | .error cause => .error (.unreadableFile path (.unreachable cause))
  | .ok bytes => (Utf8.decode bytes).mapError fun e => .unreadableFile path (.undecodable e)

/-- The registry of a file with the given bytes. -/
def ofFile (depth : Nat) (path : Text) (bytes : Except PathError (List UInt8)) :
    Logged Failure Registry := do
  let text ← Logged.ofExcept (fileText path bytes)
  ofLines depth (some path) text.lines

end Index

end CrateIndex
