import CrateIndex.Files.Path
import CrateIndex.OrderedMap
import CrateIndex.Text.Utf8

/-!
# File trees

A tree of folders, files and symbolic links as a value, and how a path finds its way through it, so
far as the user may go.
-/

namespace CrateIndex

/-- A place in a tree: the names from the root on, with no link among them but perhaps the last. -/
abbrev Place := List Text

/-- A stream that the program writes to. -/
inductive Stream where
  | output
  | errors
deriving DecidableEq

/-- What stands at a place. -/
inductive Node where
  | file (content : List UInt8)
  | folder
  | link (target : Text)
  /-- A device that takes everything and holds nothing. -/
  | null
  /-- A stream of the program under the name of a file. -/
  | stream (s : Stream)
deriving DecidableEq

/-- What the user who runs the program may do with what stands at a place. To enter a folder is to
look a name up in it. -/
structure Rights where
  read : Bool := true
  write : Bool := true
  enter : Bool := true
deriving DecidableEq

/-- A file tree, the folder from which relative paths start, and the homes of users. -/
structure FileTree where
  nodes : OrderedMap Place Node
  /-- The rights at each place; where nothing stands, those at a file that would be made there. -/
  rights : Place → Rights := fun _ => {}
  current : Place
  /-- The home of the user who runs the program. -/
  home : Text
  /-- The users known by name, each with a home. -/
  users : List (Text × Text) := []

/-- Why a path does not lead to what is wanted. -/
inductive PathError where
  | notFound
  | denied
  | notFolder
  | isFolder
  | nameTooLong
  | tooManyLinks
  /-- The path holds the code point zero. -/
  | holdsNul
deriving DecidableEq

/-- How the failure of `path` is reported. -/
def PathError.message (path : Text) : PathError → Text
  | .notFound => "[Errno 2] No such file or directory: " ++ path.quoted
  | .denied => "[Errno 13] Permission denied: " ++ path.quoted
  | .notFolder => "[Errno 20] Not a directory: " ++ path.quoted
  | .isFolder => "[Errno 21] Is a directory: " ++ path.quoted
  | .nameTooLong => "[Errno 36] File name too long: " ++ path.quoted
  | .tooManyLinks => "[Errno 40] Too many levels of symbolic links: " ++ path.quoted
  | .holdsNul => "embedded null byte"

/-- The bytes that are read from a node. -/
def Node.content : Node → Except PathError (List UInt8)
  | .file content => .ok content
  | .null | .stream _ => .ok []
  | .folder | .link _ => .error .isFolder

namespace FileTree

/-- What a path leads to. -/
inductive Target where
  | present (place : Place) (node : Node)
  /-- Nothing stands there, but the folder around it does. -/
  | absent (place : Place)

/-- What a path is followed for. -/
inductive Aim where
  /-- What stands at its last name, be it a link. -/
  | lastName
  /-- Where the links at its end lead. -/
  | linkEnd
  /-- A file there, which is made if there is none. -/
  | newFile
deriving DecidableEq

/-- The most bytes of a name. -/
def nameLimit : Nat := 255

/-- The least number of bytes that is too long for a path. -/
def pathLimit : Nat := 4096

/-- The most links that are followed on one way. -/
def linkLimit : Nat := 40

/-- Where a path starts. -/
def start (t : FileTree) (path : Text) : Place := if Path.isAbsolute path then [] else t.current

/-- The name can be looked up in the folder. An empty name needs no right. -/
def admits (t : FileTree) (place : Place) (n : Text) : Bool := n.isEmpty || (t.rights place).enter

/-- The way from a folder along names. Each folder in which a name is looked up must be entered. A
link in the middle is followed; one at the end unless the link itself is the aim. A name behind a
file leads nowhere, an empty one neither. A last name with a slash behind it can only be a folder's:
no file is made there, whatever stands there. -/
def walk (t : FileTree) (aim : Aim) (links : Nat) (place : Place) (ns : List Text) :
    Except PathError Target :=
  match ns with
  | [] => .ok (.present place .folder)
  | n :: rest =>
    if !t.admits place n then .error .denied
    else if n = "" ∨ n = "." then walk t aim links place rest
    else if n = ".." then walk t aim links place.dropLast rest
    else if aim = .newFile ∧ !rest.isEmpty ∧ rest.all List.isEmpty then .error .isFolder
    else if nameLimit < Utf8.size n then .error .nameTooLong
    else
      let child := place ++ [n]
      match t.nodes.get? child with
      | none => if rest.isEmpty then .ok (.absent child) else .error .notFound
      | some .folder => walk t aim links child rest
      | some (.link target) =>
        if rest.isEmpty ∧ aim = .lastName then .ok (.present child (.link target))
        else match links with
          | 0 => .error .tooManyLinks
          | links + 1 =>
            walk t aim links (if Path.isAbsolute target then [] else place)
              (Path.names target ++ rest)
      | some node => if rest.isEmpty then .ok (.present child node) else .error .notFolder
termination_by (links, ns.length)

/-- What a path leads to. -/
def find (t : FileTree) (aim : Aim) (path : Text) : Except PathError Target :=
  if path.any fun c => c.val = 0 then .error .holdsNul
  else if path.isEmpty then .error .notFound
  else if pathLimit ≤ Utf8.size path then .error .nameTooLong
  else t.walk aim linkLimit (t.start path) (Path.names path)

/-- The place and node of a path whose links are followed to the end. -/
def resolve (t : FileTree) (path : Text) : Except PathError (Place × Node) := do
  match ← t.find .linkEnd path with
  | .present place node => return (place, node)
  | .absent _ => throw .notFound

/-- Something stands at the path, be it a link that leads nowhere. -/
def isPresent (t : FileTree) (path : Text) : Bool :=
  match t.find .lastName path with
  | .ok (.present _ _) => true
  | _ => false

def isFolder (t : FileTree) (path : Text) : Bool :=
  match t.resolve path with
  | .ok (_, .folder) => true
  | _ => false

def isFile (t : FileTree) (path : Text) : Bool :=
  match t.resolve path with
  | .ok (_, .file _) => true
  | _ => false

/-- The path leads to a folder whose names can be listed. -/
def isListed (t : FileTree) (path : Text) : Bool :=
  match t.resolve path with
  | .ok (place, .folder) => (t.rights place).read
  | _ => false

/-- The path leads to a folder that can be listed and entered. -/
def isOpen (t : FileTree) (path : Text) : Bool :=
  match t.resolve path with
  | .ok (place, .folder) => (t.rights place).read && (t.rights place).enter
  | _ => false

/-- The name of a place right inside a folder. -/
def childName? (folder place : Place) : Option Text :=
  match place.getLast? with
  | some n => if place.dropLast = folder then some n else none
  | none => none

/-- The names in a folder; none if the path leads to no folder that can be listed. The empty path is
the current folder. -/
def namesIn (t : FileTree) (path : Text) : List Text :=
  match t.resolve (if path.isEmpty then "." else path) with
  | .ok (place, .folder) =>
    if (t.rights place).read then t.nodes.keys.filterMap (childName? place) else []
  | _ => []

/-- The bytes of a file. -/
def read (t : FileTree) (path : Text) : Except PathError (List UInt8) := do
  let (place, node) ← t.resolve path
  if (t.rights place).read then node.content else throw .denied

/-- Opens a file for writing at its end, and makes it if it is not there. A file is made in a folder
that can be written. -/
def openToAppend (t : FileTree) (path : Text) : Except PathError (FileTree × Place) := do
  match ← t.find .newFile path with
  | .present _ .folder | .present _ (.link _) => throw .isFolder
  | .present place _ => if (t.rights place).write then return (t, place) else throw .denied
  | .absent place =>
    if (t.rights place.dropLast).write then
      return ({ t with nodes := t.nodes.insert place (.file []) }, place)
    else throw .denied

/-- Adds bytes at the end of a file. -/
def append (t : FileTree) (place : Place) (bytes : List UInt8) : FileTree :=
  match t.nodes.get? place with
  | some (.file content) => { t with nodes := t.nodes.insert place (.file (content ++ bytes)) }
  | _ => t

/-- The absolute path of a place. -/
def pathOf (place : Place) : Text := Path.slash :: Text.join [Path.slash] place

/-- The absolute form of a path, by its text alone. -/
def absolute (t : FileTree) (path : Text) : Text := Path.absolute (pathOf t.current) path

end FileTree

end CrateIndex
