import CrateIndex.Files.Path
import CrateIndex.Proofs.Text.Splitting
import Mathlib.Data.List.TakeWhile

/-!
# Names of paths

The names of a path hold no slash. A name behind a folder is the last name of the joined path, and
the names before it are those of the folder.
-/

namespace CrateIndex

namespace Path

variable {folder n p : Text}

theorem slash_notMem_of_mem_names (h : n ∈ names p) : slash ∉ n := Text.notMem_of_mem_splitOn h

theorem slash_notMem_base (p : Text) : slash ∉ base p := by
  intro h
  rw [base, List.mem_reverse] at h
  simpa [isSlash] using List.mem_takeWhile_imp h

theorem isAbsolute_eq_false (h : slash ∉ n) : isAbsolute n = false := by
  cases n with
  | nil => rfl
  | cons c n =>
      rw [List.mem_cons, not_or] at h
      simpa [isAbsolute] using Ne.symm h.1

/-- A name behind a folder: on its own, or with a slash in front that the folder may end with. -/
theorem join_cases (folder : Text) (h : slash ∉ n) :
    folder = [] ∧ join folder n = n ∨
      folder ≠ [] ∧
        ∃ p, (folder = p ∨ folder = p ++ [slash]) ∧ join folder n = p ++ slash :: n := by
  rw [join, isAbsolute_eq_false h, if_neg (by simp)]
  cases hl : folder.getLast? with
  | none => exact .inl ⟨List.getLast?_eq_none_iff.1 hl, rfl⟩
  | some c =>
      obtain ⟨p, rfl⟩ := List.getLast?_eq_some_iff.1 hl
      refine .inr ⟨by simp, ?_⟩
      simp only
      split
      · next hc =>
          obtain rfl : c = slash := by simpa [isSlash] using hc
          exact ⟨p, .inr rfl, by simp⟩
      · exact ⟨p ++ [c], .inl rfl, by simp⟩

theorem names_append_slash (p : Text) : names (p ++ [slash]) = names p ++ [([] : Text)] :=
  Text.splitOn_append_cons

theorem names_append_name (p : Text) (h : slash ∉ n) :
    names (p ++ slash :: n) = names p ++ [n] := by
  rw [names, Text.splitOn_append_cons, Text.splitOn_of_notMem h]
  rfl

theorem isAbsolute_append (h : p ≠ []) (s : Text) : isAbsolute (p ++ s) = isAbsolute p := by
  cases p with
  | nil => exact absurd rfl h
  | cons c p => rfl

/-- The path of a folder, where the empty one is the current folder. -/
def explicit (folder : Text) : Text := if folder.isEmpty then "." else folder

theorem explicit_of_ne_nil (h : p ≠ []) : explicit p = p := by simp [explicit, h]

theorem join_ne_nil (folder : Text) (h : n ≠ []) : join folder n ≠ [] := by
  rw [join]
  split
  · exact h
  · split
    · exact h
    · split <;> simp [h]

end Path

end CrateIndex
