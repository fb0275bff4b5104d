import CrateIndex.CommandLine.Help
import CrateIndex.CommandLine.Session

/-!
# A run of the program

From arguments, environment and file tree to the bytes written, the lines logged and the exit code.
The document is written whole or not at all.
-/

namespace CrateIndex.CommandLine

/-- How a run ends. -/
inductive Ending where
  | exit (code : Nat)
  /-- The failure is none that has an exit code, and ends the run as it is. -/
  | uncaught (failure : Failure)

/-- What a run leaves behind. -/
structure Outcome where
  ending : Ending
  /-- The bytes of standard output. -/
  output : List UInt8
  /-- The text of standard error. -/
  errors : Text
  /-- The files after the run. -/
  tree : FileTree

/-- The exit code of a failure: 1 if a file is at fault, 2 if what is written in it. -/
def exitCode? : Failure → Option Nat
  | .noLocation _ | .unreadableLocation _ | .unreadableFile _ _ => some 1
  | .badLine _ _ _ | .badWildcard _ _ _ _ _ => some 2
  | _ => none

/-- An error of the program itself. -/
def abortEntry (message : Text) : Log.Entry := ⟨.error, .program, message ++ ", aborting", []⟩

def startEntry : Log.Entry where
  level := .debug
  source := .commandLine
  message := "CLI start"
  details := Log.details [("event", some (.text "function_entry")),
    ("component", some (.text "cli")), ("action", some (.text "main"))]

/-- The log of a run is set up. Its file is opened, and made, before the threshold is looked up. -/
def setUp (limits : Limits) (t : FileTree) (env : Environment) (stamp : Log.Entry → Text)
    (a : Arguments) : Except Outcome Session :=
  match openLog t stamp a with
  | .error (_, .holdsNul) => .error ⟨.uncaught .nulInPath, [], [], t⟩
  | .error (path, cause) =>
    let entry := abortEntry ("Log file couldn't be opened: " ++ cause.message path)
    .error ⟨.exit 1, [], entry.line, t⟩
  | .ok (t, file) =>
    match chooseThreshold a env with
    | .error cause => .error ⟨.uncaught (.badThreshold cause), [], [], t⟩
    | .ok threshold => .ok ⟨limits, t, file, threshold, a, env⟩

/-- What happens in a run. -/
inductive Event where
  | record (e : Log.Entry)
  /-- The document is written. -/
  | document (bytes : List UInt8)

/-- The record of an event that is one. -/
def Event.record? : Event → Option Log.Entry
  | .record e => some e
  | .document _ => none

namespace Session

/-- Finds the index files and makes the registry. -/
def makeRegistry (s : Session) : Logged Failure Registry := do
  Logged.note startEntry
  let strategy ← Logged.ofExcept s.arguments.strategy
  let paths ← s.search
  Index.ofFiles s.depth s.reader strategy (startEntry :: s.search.log) paths

/-- What happens in a run, first to last, and how it ends. -/
def course (s : Session) : List Event × Ending :=
  let made := s.makeRegistry
  let written := Logged.ofExcept made.result >>= s.arguments.format.write
  let before := made.log.map Event.record
  match written.result with
  | .ok bytes => (before ++ .document bytes :: written.log.map .record, .exit 0)
  | .error failure =>
    match exitCode? failure with
    | some code => (before ++ [.record (abortEntry failure.message)], .exit code)
    | none => (before, .uncaught failure)

/-- The line of an event in a log that is kept in that stream. -/
def logLine (s : Session) (stream : Stream) (e : Log.Entry) : Text :=
  match s.log with
  | some f => if s.stream? = some stream ∧ e.isShown s.threshold then f.line e else []
  | none => []

/-- What an event adds to standard output. -/
def output (s : Session) : Event → List UInt8
  | .record e => (s.logLine .output e).flatMap CodePoint.utf8
  | .document bytes => bytes

/-- What an event adds to standard error. -/
def errors (s : Session) : Event → Text
  | .record e => (if e.isShown s.threshold then e.line else []) ++ s.logLine .errors e
  | .document _ => []

/-- The outcome of a run whose log is set up. -/
def outcome (s : Session) : Outcome :=
  let (events, ending) := s.course
  { ending
    output := events.flatMap s.output
    errors := events.flatMap s.errors
    tree := withLog s.tree s.log (s.shown (events.filterMap Event.record?)) }

end Session

/-- The outcome of a call of the program that can go so deep. -/
def run (limits : Limits) (t : FileTree) (env : Environment) (stamp : Log.Entry → Text)
    (arguments : List Text) : Outcome :=
  match parse arguments with
  | .help => ⟨.exit 0, helpText.flatMap CodePoint.utf8, [], t⟩
  | .invalid e => ⟨.exit 2, [], e.report, t⟩
  | .arguments a =>
    match setUp limits t env stamp a with
    | .error outcome => outcome
    | .ok session => session.outcome

end CrateIndex.CommandLine
