import CrateIndex.CommandLine.Arguments
import CrateIndex.Document.Format
import CrateIndex.Index.Files
import CrateIndex.Index.Search

/-!
# Sessions

What a run is told, and how its log is set up. The log file is opened before anything else is looked
at, so that it can be one of the files that are searched, or a stream of the program.
-/

namespace CrateIndex.CommandLine

/-- The variables that the program looks at. -/
structure Environment where
  index : Option Text := none
  logLevel : Option Text := none

/-- The text that an option was given, if any and not empty. -/
def given : Option Operand → Option Text
  | some (.text t) => if t.isEmpty then none else some t
  | _ => none

/-- The pattern to search for: that of the option, else that of the environment without blanks at
its ends. -/
def choosePattern (a : Arguments) (env : Environment) : Option Text :=
  match given a.index with
  | some p => some p
  | none => match env.index.map Text.trim with
    | none | some [] => none
    | some p => some p

/-- The threshold for log records: the option's, else that of the environment. -/
def chooseThreshold (a : Arguments) (env : Environment) : Except Log.BadThreshold Nat :=
  match given a.logLevel, env.logLevel with
  | some level, _ => Log.threshold level.toUpper
  | none, some level => Log.threshold level.toUpper
  | none, none => .ok Log.defaultThreshold

def Arguments.format (a : Arguments) : Format := if a.json then .json else .messagePack

def Arguments.strategy (a : Arguments) : Except Failure MergePolicy :=
  match a.mergeStrategy with
  | .text t => MergePolicy.ofName t
  | .nothing => .error (.unknownStrategy "[]")

/-- A log that is kept in a file: the file, and the time that is written in front of a record. -/
structure LogFile where
  place : Place
  stamp : Log.Entry → Text

/-- The line of a record in the file. There is none for a record that cannot be encoded. -/
def LogFile.line (f : LogFile) (e : Log.Entry) : Text :=
  let line := e.fileLine (f.stamp e)
  if (Utf8.encode line).toBool then line else []

/-- The bytes of records in the file. -/
def LogFile.bytes (f : LogFile) (es : List Log.Entry) : List UInt8 :=
  es.flatMap fun e => (f.line e).flatMap CodePoint.utf8

/-- The tree with the records in the log file. -/
def withLog (t : FileTree) (file : Option LogFile) (shown : List Log.Entry) : FileTree :=
  match file with
  | none => t
  | some f => t.append f.place (f.bytes shown)

/-- The tree and the log file once the log is opened, or the path that cannot be opened. -/
def openLog (t : FileTree) (stamp : Log.Entry → Text) (a : Arguments) :
    Except (Text × PathError) (FileTree × Option LogFile) :=
  match given a.logFile with
  | none => .ok (t, none)
  | some path =>
    let path := t.absolute path
    match t.openToAppend path with
    | .ok (t, place) => .ok (t, some ⟨place, stamp⟩)
    | .error cause => .error (path, cause)

/-- How deep the program can go before it gives up. -/
structure Limits where
  /-- The most containers inside one another on a line. -/
  containers : Nat
  /-- The most names of a pattern that are looked up one inside the other. -/
  names : Nat

/-- A run whose log is set up. -/
structure Session where
  limits : Limits
  /-- The tree in which the log file is made. -/
  tree : FileTree
  log : Option LogFile
  threshold : Nat
  arguments : Arguments
  environment : Environment

namespace Session

/-- The most containers inside one another on a line. -/
def depth (s : Session) : Nat := s.limits.containers

/-- The records that weigh enough to be shown. -/
def shown (s : Session) (log : List Log.Entry) : List Log.Entry :=
  log.filter (Log.Entry.isShown s.threshold)

/-- What a path leads to when those records are made. -/
def reader (s : Session) : Index.Reader := fun before path =>
  (withLog s.tree s.log (s.shown before)).read path

/-- The search for index files. -/
def search (s : Session) : Logged Failure (List Text) :=
  Index.search s.limits.names s.tree (choosePattern s.arguments s.environment)

/-- The stream in which the log is kept, if it is one. -/
def stream? (s : Session) : Option Stream :=
  match s.log.bind fun f => s.tree.nodes.get? f.place with
  | some (.stream stream) => some stream
  | _ => none

end Session

end CrateIndex.CommandLine
