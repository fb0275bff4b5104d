import CrateIndex.Index.Search

/-!
# Paths that can be followed

A path with the code point zero is refused before it is followed, and no way through a tree ends
for that cause. So the files that a search finds are not refused when they are opened.
-/

namespace CrateIndex

namespace FileTree

variable {t : FileTree} {aim : Aim} {links : Nat} {place : Place} {ns : List Text} {path : Text}

theorem walk_ne_holdsNul : t.walk aim links place ns ≠ .error .holdsNul := by
  fun_induction walk t aim links place ns <;> simp_all

/-- The path holds the code point zero. -/
def HoldsNul (path : Text) : Prop := ∃ c ∈ path, CodePoint.val c = 0

theorem holdsNul_of_find (h : t.find aim path = .error .holdsNul) : HoldsNul path := by
  unfold find at h
  split at h
  · next hn => simpa [HoldsNul] using hn
  · split at h
    · cases h
    · split at h
      · cases h
      · exact absurd h walk_ne_holdsNul

theorem holdsNul_of_resolve (h : t.resolve path = .error .holdsNul) : HoldsNul path := by
  unfold resolve at h
  cases hf : t.find .linkEnd path with
  | error e =>
      rw [hf] at h
      cases h
      exact holdsNul_of_find hf
  | ok target =>
      rw [hf] at h
      cases target with
      | present place node => cases h
      | absent place => cases h

theorem read_of_resolve {node : Node} (h : t.resolve path = .ok (place, node)) :
    t.read path = if (t.rights place).read then node.content else .error .denied := by
  rw [read, h]
  rfl

theorem holdsNul_of_read (h : t.read path = .error .holdsNul) : HoldsNul path := by
  cases hr : t.resolve path with
  | error e =>
      rw [read, hr] at h
      cases h
      exact holdsNul_of_resolve hr
  | ok found =>
      obtain ⟨place, node⟩ := found
      rw [read_of_resolve hr] at h
      split at h
      · cases node <;> cases h
      · cases h

theorem not_holdsNul_of_isFile (h : t.isFile path = true) : ¬ HoldsNul path := by
  rintro ⟨c, hc, hn⟩
  have hf : t.find .linkEnd path = .error .holdsNul := by
    rw [find, if_pos (List.any_eq_true.2 ⟨c, hc, by simpa using hn⟩)]
  rw [isFile, resolve, hf] at h
  cases h

/-! ## A tree with one file -/

/-- The tree with nothing in it but one file, in the folder from which relative paths start. -/
def single (content : List UInt8) : FileTree where
  nodes := .ofList [(["f"], .file content)]
  current := []
  home := "/"

variable (content : List UInt8)

theorem find_single (h : aim ≠ .newFile) :
    (single content).find aim "f" = .ok (.present ["f"] (.file content)) := by
  have hn : Path.names "f" = (["f"] : List Text) := by decide
  have hs : (single content).start "f" = [] := rfl
  have hg : (single content).nodes.get? ["f"] = some (.file content) := by
    simp [single, OrderedMap.ofList, OrderedMap.insertAll, OrderedMap.get?_insert]
  rw [find, if_neg (by decide), if_neg (by decide), if_neg (by decide), hn, hs, walk,
    if_neg (by simp [admits, single]), if_neg (by decide), if_neg (by decide), if_neg (by simp [h]),
    if_neg (by decide)]
  simp [hg]

theorem resolve_single : (single content).resolve "f" = .ok (["f"], .file content) := by
  rw [resolve, find_single content (by decide)]
  rfl

theorem read_single : (single content).read "f" = .ok content := by
  rw [read, resolve_single]
  rfl

theorem resolve_single_current : (single content).resolve "." = .ok ([], .folder) := by
  have hn : Path.names "." = (["."] : List Text) := by decide
  have hs : (single content).start "." = [] := rfl
  have hf : (single content).find .linkEnd "." = .ok (.present [] .folder) := by
    rw [find, if_neg (by decide), if_neg (by decide), if_neg (by decide), hn, hs, walk,
      if_neg (by simp [admits, single]), if_pos (by decide), walk]
  rw [resolve, hf]
  rfl

theorem isFolder_single : (single content).isFolder "." = true := by
  rw [isFolder, resolve_single_current]

theorem isOpen_single : (single content).isOpen "." = true := by
  rw [isOpen, resolve_single_current]
  rfl

end FileTree

namespace Index

theorem isFile_of_mem_filesOf {t : FileTree} {pattern path : Text}
    (h : path ∈ filesOf t pattern) : t.isFile path = true := by
  rw [filesOf, List.mem_mergeSort, List.mem_filter] at h
  simp only [isRecordFile, Bool.and_eq_true] at h
  exact h.2.1.1

/-- A search that does not fail has the index files of its pattern. -/
theorem search_cases (limit : Nat) (t : FileTree) (pattern : Option Text) :
    (∃ f, search limit t pattern = Logged.fail f) ∨
      ∃ p, fullPattern? t pattern = some p ∧
        search limit t pattern = ⟨searchEntries p (filesOf t p), .ok (filesOf t p)⟩ := by
  unfold search
  split
  · exact .inl ⟨_, rfl⟩
  · next p hp =>
      simp only
      split
      · exact .inl ⟨_, rfl⟩
      · split
        · exact .inl ⟨_, rfl⟩
        · split
          · exact .inl ⟨_, rfl⟩
          · exact .inr ⟨p, hp, rfl⟩

theorem isFile_of_search {limit : Nat} {t : FileTree} {pattern : Option Text} {paths : List Text}
    {path : Text} (hp : (search limit t pattern).result = .ok paths) (h : path ∈ paths) :
    t.isFile path = true := by
  rcases search_cases limit t pattern with ⟨f, hs⟩ | ⟨p, -, hs⟩
  · rw [hs] at hp
    cases hp
  · rw [hs] at hp
    cases hp
    exact isFile_of_mem_filesOf h

theorem search_single_eq (limit : Nat) (content : List UInt8) :
    search limit (.single content) (some "f") = ⟨searchEntries "f" ["f"], .ok ["f"]⟩ := by
  have hroot : Glob.root "f" = "." := by
    rw [Glob.root, Glob.fixedPart]
    decide
  have hwild : NamePattern.hasWild "f" = false := by decide
  have hbase : (Path.base "f").isEmpty = false := by decide
  have hpresent : (FileTree.single content).isPresent "f" = true := by
    rw [FileTree.isPresent, FileTree.find_single content (by decide)]
  have hrecord : isRecordFile (.single content) "f" = true := by
    rw [isRecordFile, FileTree.isFile, FileTree.resolve_single]
    rfl
  have hfiles : filesOf (.single content) "f" = ([("f" : Text)] : List Text) := by
    rw [filesOf, Glob.expand]
    simp [hwild, hbase, hpresent, hrecord]
  have hpattern : fullPattern? (.single content) (some "f") = some ("f" : Text) := rfl
  have hinner : Glob.innerNames "f" = 0 := by
    rw [Glob.innerNames]
    simp [hwild]
  rw [search, hpattern]
  simp [hroot, FileTree.isFolder_single, FileTree.isOpen_single, hinner, hfiles]

theorem search_single (limit : Nat) (content : List UInt8) :
    (search limit (.single content) (some "f")).result = .ok ["f"] := by
  rw [search_single_eq]

end Index

end CrateIndex
