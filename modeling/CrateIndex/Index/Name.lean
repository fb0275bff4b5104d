import CrateIndex.Requirement.Pattern

/-!
# Names and versions

How the names and versions of the index are written in the registry.
-/

namespace CrateIndex

/-- The name of a crate in the registry: its first hyphen becomes an underscore, and the namespace
goes in front. -/
def registryName (name : Text) : Text := "test/" ++ Text.replaceFirst '-' '_' name

/-- The version without its first build tag, which is a plus sign and the run of tag characters
behind it. A plus sign with no such character behind it starts no tag. -/
def withoutBuildTag : Text → Text
  | [] => []
  | c :: s =>
    if c = '+' ∧ (s.head?.any CharClass.tag.holds) then s.dropWhile CharClass.tag.holds
    else c :: withoutBuildTag s

end CrateIndex
