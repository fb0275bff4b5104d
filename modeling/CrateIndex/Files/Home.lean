import CrateIndex.Files.Tree

/-!
# Home folders

A path that starts with a tilde is taken from a user's home: the user named between the tilde and
the first slash, or the one who runs the program if there is no name.
-/

namespace CrateIndex.FileTree

/-- The home of a user, if there is such a user. -/
def homeOf? (t : FileTree) (user : Text) : Option Text :=
  if user.isEmpty then some t.home else t.users.lookup user

/-- The path taken from a home folder. It stays as it is when the user is unknown; there is none
when the name of the user holds the code point zero. -/
def expandHome? (t : FileTree) (path : Text) : Option Text :=
  match path with
  | [] => some path
  | c :: rest =>
    if c = '~' then
      let user := rest.takeWhile fun c => !Path.isSlash c
      if user.any fun c => c.val = 0 then none
      else match t.homeOf? user with
        | none => some path
        | some home =>
          let full := Text.dropRightWhile Path.isSlash home ++ rest.drop user.length
          some (if full.isEmpty then [Path.slash] else full)
    else some path

end CrateIndex.FileTree
