import CrateIndex.Files.Tree

/-!
# Building file trees

Putting folders, files and links into a tree, as they would come to stand there on a disk.
-/

namespace CrateIndex.FileTree

/-- The tree with nothing in it but the folder `current`. -/
def withCurrent (current : Place) (home : Text) : FileTree where
  nodes := .ofList ((List.range current.length).map fun i => (current.take (i + 1), .folder))
  current := current
  home := home

/-- The tree with a folder at each name on the way from `place`, and the place of the last. A link
on the way is followed; what is no folder ends the way. -/
def addFolders (t : FileTree) (place : Place) : List Text → FileTree × Place
  | [] => (t, place)
  | n :: rest =>
    match t.walk .linkEnd linkLimit place [n] with
    | .ok (.present place .folder) => addFolders t place rest
    | .ok (.absent place) =>
      addFolders { t with nodes := t.nodes.insert place .folder } place rest
    | _ => (t, place)

/-- The tree with a folder at the path. -/
def addFolder (t : FileTree) (path : Text) : FileTree :=
  (t.addFolders (t.start path) (Path.names path)).1

/-- The tree with a file at the path, and the folders around it. -/
def addFile (t : FileTree) (path : Text) (content : List UInt8) : FileTree :=
  let (t, folder) := t.addFolders (t.start path) (Path.names path).dropLast
  match t.walk .linkEnd linkLimit folder [Path.base path] with
  | .ok (.present place _) | .ok (.absent place) =>
    { t with nodes := t.nodes.insert place (.file content) }
  | .error _ => t

/-- The tree with a link, a device or a stream at the path, and the folders around it. -/
def addNode (t : FileTree) (path : Text) (node : Node) : FileTree :=
  let (t, folder) := t.addFolders (t.start path) (Path.names path).dropLast
  { t with nodes := t.nodes.insert (folder ++ [Path.base path]) node }

/-- The tree with the devices that a run is given: one that holds nothing, and the streams that the
program writes to. -/
def addDevices (t : FileTree) : FileTree :=
  ((t.addNode "/dev/null" .null).addNode "/dev/stdout" (.stream .output)).addNode "/dev/stderr"
    (.stream .errors)

/-- The tree with those rights at what the path leads to. -/
def setRights (t : FileTree) (path : Text) (rights : Rights) : FileTree :=
  match t.resolve path with
  | .ok (place, _) => { t with rights := fun p => if p = place then rights else t.rights p }
  | .error _ => t

end CrateIndex.FileTree
