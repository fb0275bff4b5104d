import CrateIndex.CommandLine.Run
import CrateIndex.Files.Building
import Std.Time.Format

/-!
# The program

Reads what a run can look at from the disk, lets it run, and writes what it leaves behind.
-/

namespace CrateIndex.Program

/-- How deep the program can go. -/
def limits : CommandLine.Limits := ⟨987, 980⟩

/-- The text as a string. A surrogate has no place in one and becomes a null character. -/
def toString (t : Text) : String := String.ofList (t.map fun c => Char.ofNat c.val)

/-- The tree with a file on the disk. -/
def loadFile (t : FileTree) (path : Text) : IO FileTree := do
  match ← (IO.FS.readBinFile (toString path)).toBaseIO with
  | .ok bytes => return t.addFile path bytes.toList
  | .error _ => return (t.addFile path []).setRights path { read := false }

/-- The tree with what stands on the disk where names or patterns for names lead from a folder.
Links count as what they lead to. -/
def load (t : FileTree) (path : Text) : (names : List Text) → IO FileTree
  | [] => return t
  | name :: rest => do
    let .ok folder ← (IO.FS.realPath (toString path)).toBaseIO | return t
    if !(← folder.isDir) then return t
    let listing ← folder.readDir.toBaseIO
    let inside ← (folder / ".").metadata.toBaseIO
    let listed := (listing.toOption.getD #[]).toList.map fun entry => Text.ofString entry.fileName
    let mut t := t.addFolder path
    for n in if NamePattern.hasWild name then listed else [name] do
      if let .ok found ← (folder / toString n).metadata.toBaseIO then
        match found.type with
        | .dir => t ← load t (Path.join path n) rest
        | .file => t ← loadFile t (Path.join path n)
        | _ => pure ()
    return t.setRights path { read := listing.toBool, enter := inside.toBool }

/-- The tree with what stands on the disk on the way to a log file. If none can be opened there, the
file or the folder around it is one that cannot be written. -/
def loadLog (t : FileTree) (path : Text) : IO FileTree := do
  let t ← load t [Path.slash] (Path.names path).tail
  match ← (IO.FS.Handle.mk (toString path) .append).toBaseIO with
  | .ok _ => return t
  | .error _ =>
    let place := if t.isFile path then path else Path.parent path
    return t.setRights place { read := t.isListed place || t.isFile place, write := false }

/-- The users of the system, each with a home. -/
def loadUsers : IO (List (Text × Text)) := do
  match ← (IO.FS.readFile "/etc/passwd").toBaseIO with
  | .error _ => return []
  | .ok listing =>
    return (Text.splitOn '\n' (Text.ofString listing)).filterMap fun line =>
      match Text.splitOn ':' line with
      | name :: _ :: _ :: _ :: _ :: home :: _ => some (name, home)
      | _ => none

/-- The part of the disk that a run with those arguments looks at. -/
def loadTree (a : CommandLine.Arguments) (env : CommandLine.Environment) : IO FileTree := do
  let current := Text.ofString (← IO.currentDir).toString
  let home := Text.ofString ((← IO.getEnv "HOME").getD "/")
  let empty := { FileTree.withCurrent (Path.simplify (Path.names current)) home with
    users := ← loadUsers }
  let t ← match Index.fullPattern? empty (CommandLine.choosePattern a env) with
    | none => pure empty
    | some pattern =>
      if Path.isAbsolute pattern then load empty [Path.slash] (Path.names pattern).tail
      else load empty "." (Path.names pattern)
  let t ← match CommandLine.given a.logFile with
    | none => pure t
    | some path => loadLog t (t.absolute path)
  return t.addDevices

/-- The bytes of a regular file. -/
def fileBytes (t : FileTree) (path : Text) : List UInt8 :=
  match t.resolve path with
  | .ok (_, .file bytes) => bytes
  | _ => []

/-- Adds to the log file what a run added to it. -/
def saveLog (a : CommandLine.Arguments) (before after : FileTree) : IO Unit := do
  if let some path := CommandLine.given a.logFile then
    let path := before.absolute path
    if after.isFile path then
      let added := (fileBytes after path).drop (fileBytes before path).length
      let file ← IO.FS.Handle.mk (toString path) .append
      file.write ⟨added.toArray⟩

end CrateIndex.Program

open CrateIndex CrateIndex.Program in
def main (arguments : List String) : IO UInt32 := do
  let arguments := arguments.map Text.ofString
  let env : CommandLine.Environment := {
    index := (← IO.getEnv "CARGO_IMPORT_INDEX").map Text.ofString
    logLevel := (← IO.getEnv "CARGO_IMPORT_LOG_LEVEL").map Text.ofString }
  let stamp := Text.ofString ((← Std.Time.PlainDateTime.now).format "uuuu-MM-dd HH:mm:ss,SSS")
  let parsed := CommandLine.parse arguments
  let tree ← match parsed with
    | .arguments a => loadTree a env
    | _ => pure (FileTree.withCurrent [] [])
  let outcome := CommandLine.run limits tree env (fun _ => stamp) arguments
  (← IO.getStdout).write ⟨outcome.output.toArray⟩
  (← IO.getStderr).putStr (toString outcome.errors)
  if let .arguments a := parsed then saveLog a tree outcome.tree
  match outcome.ending with
  | .exit code => return code.toUInt32
  | .uncaught failure =>
    (← IO.getStderr).putStrLn (toString failure.message)
    return 1
