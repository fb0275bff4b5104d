import CrateIndex.Files.NamePattern
import CrateIndex.Files.Tree

/-!
# Path patterns

A pattern for paths is held against a tree name by name. Its names that are no patterns are taken
as they are.
-/

namespace CrateIndex

namespace Glob

open NamePattern

/-- The names in `folder` that the last name of a pattern stands for. An empty one stands for the
folder itself. In a folder that can be listed and not entered no name counts as that of a folder:
whatever such a name stood for, nothing behind it would be found. -/
def lastNames (t : FileTree) (foldersOnly : Bool) (folder last : Text) : List Text :=
  if hasWild last then
    ((t.namesIn folder).filter (takes last)).filter fun n =>
      !foldersOnly || t.isFolder (Path.join folder n)
  else if last.isEmpty then (if t.isFolder folder then [last] else [])
  else if t.isPresent (Path.join folder last) then [last] else []

theorem exists_wild {p : Text} (h : hasWild p = true) : ∃ c ∈ p, Path.isSlash c = false := by
  obtain ⟨c, hc, hm⟩ := List.any_eq_true.1 h
  refine ⟨c, hc, ?_⟩
  simp only [isWild, Bool.or_eq_true, decide_eq_true_eq] at hm
  rcases hm with (rfl | rfl) | rfl <;> decide

/-- The paths that a pattern stands for, folder by folder in the order of the tree. -/
def expand (t : FileTree) (foldersOnly : Bool) (pattern : Text) : List Text :=
  if _h : hasWild pattern then
    let folder := Path.parent pattern
    let folders := if hasWild folder then expand t true folder else [folder]
    folders.flatMap fun f =>
      (lastNames t foldersOnly f (Path.base pattern)).map (Path.join f)
  else if (Path.base pattern).isEmpty then
    (if t.isFolder (Path.parent pattern) then [pattern] else [])
  else if t.isPresent pattern then [pattern] else []
termination_by pattern.length
decreasing_by
  obtain ⟨c, hc, hs⟩ := exists_wild _h
  exact Path.length_parent_lt hc hs

/-- The number of names of a pattern from the first with a wildcard on. Each of them is looked up
inside what those in front of it stand for. -/
def innerNames (pattern : Text) : Nat :=
  if _h : hasWild pattern then innerNames (Path.parent pattern) + 1 else 0
termination_by pattern.length
decreasing_by
  obtain ⟨c, hc, hs⟩ := exists_wild _h
  exact Path.length_parent_lt hc hs

/-- The folder before the first name of a pattern that is one, or before its last name. -/
def fixedPart (head : Text) : Text :=
  if _h : hasWild head then fixedPart (Path.parent head) else head
termination_by head.length
decreasing_by
  obtain ⟨c, hc, hs⟩ := exists_wild _h
  exact Path.length_parent_lt hc hs

/-- The folder in which everything that a pattern stands for lies. -/
def root (pattern : Text) : Text :=
  let part := fixedPart (Path.parent pattern)
  if part.isEmpty then "." else part

end Glob

end CrateIndex
