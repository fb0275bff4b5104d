import CrateIndex.Index.Lines
import CrateIndex.Registry.Merge

/-!
# Index files

The files of an index, read and merged one after the other. A file is opened when its turn comes.
Since the log may itself be one of the files, what a file holds can hang on the records made until
then.
-/

namespace CrateIndex.Index

/-- The bytes behind a path once those records are made. -/
abbrev Reader := List Log.Entry → Text → Except PathError (List UInt8)

/-- The registry with one more file merged in. -/
def mergeFile (depth : Nat) (strategy : MergePolicy) (merged : Registry) (path : Text)
    (bytes : Except PathError (List UInt8)) : Logged Failure Registry := do
  let registry ← ofFile depth path bytes
  Registry.mergeNext strategy merged registry

/-- The registry with files merged in one after the other, `before` being made already. -/
def mergeFiles (depth : Nat) (read : Reader) (strategy : MergePolicy) (before : List Log.Entry)
    (merged : Registry) : List Text → Logged Failure Registry
  | [] => pure merged
  | path :: paths =>
    let step := mergeFile depth strategy merged path (read before path)
    step >>= fun merged => mergeFiles depth read strategy (before ++ step.log) merged paths

/-- The record made before the first file. -/
def startEntry (strategy : MergePolicy) (count : Nat) : Log.Entry where
  level := .info
  source := .merging
  message := "Parsing " ++ Decimal.text count ++ " index file(s) with " ++ strategy.name ++ " merge"

/-- The registry of index files. -/
def ofFiles (depth : Nat) (read : Reader) (strategy : MergePolicy) (before : List Log.Entry)
    (paths : List Text) : Logged Failure Registry := do
  let start := startEntry strategy paths.length
  Logged.note start
  mergeFiles depth read strategy (before ++ [start]) ∅ paths

end CrateIndex.Index
