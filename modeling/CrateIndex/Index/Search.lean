import CrateIndex.Failure
import CrateIndex.Files.Glob
import CrateIndex.Files.Home
import CrateIndex.Logged

/-!
# Searching an index

The index files are those files that a pattern stands for, in the order of their paths, without
the configuration of the index and what belongs to version control.
-/

namespace CrateIndex.Index

/-- The pattern where none is given: the index that lies in the user's home. -/
def defaultPattern? (t : FileTree) : Option Text :=
  let names : List Text := [".cargo", "registry", "index", "*", "*", "*", "*"]
  (t.expandHome? "~").map (names.foldl Path.join)

/-- The path leads to a file of the index. -/
def isRecordFile (t : FileTree) (path : Text) : Bool :=
  t.isFile path && Path.base path != "config.json" && !(Path.names path).contains ".git"

/-- The pattern that is searched for, if the user that it names can be looked up. An empty pattern
is like none. A home that itself starts with a tilde is taken from a home once more. -/
def fullPattern? (t : FileTree) (pattern : Option Text) : Option Text :=
  match pattern with
  | none | some [] => (defaultPattern? t).bind t.expandHome?
  | some p => t.expandHome? p

/-- The index files of a pattern, in the order of their paths. -/
def filesOf (t : FileTree) (pattern : Text) : List Text :=
  ((Glob.expand t false pattern).filter (isRecordFile t)).mergeSort Text.le

/-- The records of a search. -/
def searchEntries (pattern : Text) (found : List Text) : List Log.Entry :=
  let entry (level : Log.Level) (message : Text) : Log.Entry := ⟨level, .search, message, []⟩
  let file (path : Text) : Log.Entry :=
    { entry .debug "Index file" with
      details := Log.details [("event", some (.text "discovery")),
        ("component", some (.text "discovery")), ("path", some (.text path))] }
  [entry .info ("Discovered " ++ Decimal.text found.length ++ " index file(s) for " ++ pattern)] ++
    found.map file ++
    (if found.isEmpty then [entry .warning ("No index files matched " ++ pattern)] else [])

/-- The index files of a pattern; the folder in which it starts must be there, and open. No more
than `limit` names can be looked up one inside the other. -/
def search (limit : Nat) (t : FileTree) (pattern : Option Text) : Logged Failure (List Text) :=
  match fullPattern? t pattern with
  | none => Logged.fail .nulInPath
  | some pattern =>
    let root := Glob.root pattern
    if !t.isFolder root then Logged.fail (.noLocation root)
    else if !t.isOpen root then Logged.fail (.unreadableLocation root)
    else if limit < Glob.innerNames pattern then Logged.fail .tooManyNames
    else
      let found := filesOf t pattern
      ⟨searchEntries pattern found, .ok found⟩

end CrateIndex.Index
