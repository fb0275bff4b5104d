import CrateIndex.Index.Search
import CrateIndex.Proofs.Files.Glob
import CrateIndex.Proofs.Index.Reading
import CrateIndex.Proofs.Text.Order

/-!
# Searches and new files

A search fails unless the folder in which the pattern starts is open. A new file can be among the
files that it finds; the others are found as without it, in the same order.
-/

namespace CrateIndex.Index

open FileTree

variable {limit : Nat} {t : FileTree} {place : Place} {pattern : Option Text} {p : Text}

theorem search_of_open (hp : fullPattern? t pattern = some p)
    (ho : t.isOpen (Glob.root p) = true) (hi : Glob.innerNames p ≤ limit) :
    search limit t pattern = ⟨searchEntries p (filesOf t p), .ok (filesOf t p)⟩ := by
  have hf := isFolder_of_isListed (isListed_of_isOpen ho)
  simp only [search, hp, hf, ho, Nat.not_lt.2 hi, Bool.not_true, Bool.false_eq_true, if_false]

theorem search_of_deep (hp : fullPattern? t pattern = some p)
    (ho : t.isOpen (Glob.root p) = true) (hi : limit < Glob.innerNames p) :
    search limit t pattern = Logged.fail .tooManyNames := by
  have hf := isFolder_of_isListed (isListed_of_isOpen ho)
  simp only [search, hp, hf, ho, hi, Bool.not_true, Bool.false_eq_true, if_false, if_true]

theorem search_of_not_open (hp : fullPattern? t pattern = some p)
    (hf : t.isFolder (Glob.root p) = true) (ho : t.isOpen (Glob.root p) = false) :
    search limit t pattern = Logged.fail (.unreadableLocation (Glob.root p)) := by
  simp [search, hp, hf, ho]

theorem search_of_not_folder (hp : fullPattern? t pattern = some p)
    (hf : t.isFolder (Glob.root p) = false) :
    search limit t pattern = Logged.fail (.noLocation (Glob.root p)) := by
  simp [search, hp, hf]

theorem paths_of_search {paths : List Text} (hp : fullPattern? t pattern = some p)
    (h : (search limit t pattern).result = .ok paths) : paths = filesOf t p := by
  rcases search_cases limit t pattern with ⟨f, hs⟩ | ⟨p', hp', hs⟩
  · rw [hs] at h
    cases h
  · obtain rfl : p = p' := Option.some.inj (hp.symm.trans hp')
    rw [hs] at h
    cases h
    rfl

/-- The name of the path is none that an index keeps for itself. -/
def hasRecordName (path : Text) : Bool :=
  Path.base path != "config.json" && !(Path.names path).contains ".git"

theorem isRecordFile_eq (t : FileTree) (path : Text) :
    isRecordFile t path = (t.isFile path && hasRecordName path) := by
  rw [isRecordFile, hasRecordName, Bool.and_assoc]

theorem filesOf_addEmpty (h : t.IsFree place) (pattern : Text) :
    (filesOf (t.addEmpty place) pattern).filter t.isFile = filesOf t pattern := by
  have hexpand : (Glob.expand (t.addEmpty place) false pattern).filter t.isFile =
      (Glob.expand t false pattern).filter t.isFile := Glob.expand_addEmpty h false pattern
  have hold (path : Text) :
      (t.isFile path && isRecordFile (t.addEmpty place) path) =
        (hasRecordName path && t.isFile path) := by
    rw [isRecordFile_eq]
    cases hf : t.isFile path with
    | false => rw [Bool.false_and, Bool.and_false]
    | true => rw [h.isFile hf, Bool.true_and, Bool.true_and, Bool.and_true]
  simp only [filesOf, Text.filter_mergeSort, List.filter_filter, hold]
  rw [← List.filter_filter, hexpand, List.filter_filter]
  have hrecord : (fun path => hasRecordName path && t.isFile path) = isRecordFile t := by
    funext path
    rw [isRecordFile_eq, Bool.and_comm]
  rw [hrecord]

theorem search_addEmpty (limit : Nat) (h : t.IsFree place) (pattern : Option Text) :
    (fun paths => paths.filter t.isFile) <$> (search limit (t.addEmpty place) pattern).result =
      (search limit t pattern).result := by
  have hp : fullPattern? (t.addEmpty place) pattern = fullPattern? t pattern := rfl
  rw [search, search, hp]
  cases fullPattern? t pattern with
  | none => rfl
  | some pattern =>
      simp only [h.isFolder, h.isOpen]
      split
      · rfl
      · split
        · rfl
        · split
          · rfl
          · exact congrArg Except.ok (filesOf_addEmpty h pattern)

/-- Files that are not there hold nothing, and could as well be left out. -/
theorem result_mergeFiles_held {depth : Nat} {strategy : MergePolicy}
    {before before' : List Log.Entry} {merged : Registry} (paths : List Text) :
    (mergeFiles depth (fun _ => t.held) strategy before merged paths).result =
      (mergeFiles depth (fun _ => t.read) strategy before' merged
        (paths.filter t.isFile)).result := by
  have hnew : ∀ path ∈ paths, t.isFile path = false → t.held path = .ok [] :=
    fun path _ hn => if_neg (by simp [hn])
  have hold : ∀ path ∈ paths.filter t.isFile, t.held path = t.read path :=
    fun path hmem => if_pos (List.mem_filter.1 hmem).2
  rw [← result_mergeFiles_filter before before t.isFile hnew, result_mergeFiles_congr before' hold]

end CrateIndex.Index
