import CrateIndex.Files.Glob
import CrateIndex.Proofs.Files.Frame

/-!
# Path patterns and new files

A new file adds to what a pattern stands for, and takes nothing from it: among the paths that lead
to a file of the old tree the pattern stands for the same, in the same order.
-/

namespace CrateIndex

namespace FileTree

variable {t : FileTree} {place q : Place} {folder n : Text}

/-- The path leads to a folder or, where those are not wanted, to a file. -/
def isWanted (t : FileTree) (foldersOnly : Bool) (path : Text) : Bool :=
  if foldersOnly then t.isFolder (Path.explicit path) else t.isFile path

theorem exists_resolve_of_isWanted {foldersOnly : Bool} {path : Text} (hp : path ≠ [])
    (h : t.isWanted foldersOnly path = true) : ∃ found, t.resolve path = .ok found := by
  unfold isWanted at h
  split at h
  · rw [Path.explicit_of_ne_nil hp] at h
    obtain ⟨q, hr⟩ := isFolder_iff.1 h
    exact ⟨_, hr⟩
  · obtain ⟨q, content, hr⟩ := isFile_iff.1 h
    exact ⟨_, hr⟩

theorem childName?_eq_some (h : childName? q place = some n) : place = q ++ [n] := by
  unfold childName? at h
  split at h
  · next m hm =>
      obtain ⟨folder, rfl⟩ := List.getLast?_eq_some_iff.1 hm
      rw [List.dropLast_concat] at h
      split at h
      · next hq => rw [hq, Option.some.inj h]
      · cases h
  · cases h

theorem namesIn_of_resolve (h : t.resolve (Path.explicit folder) = .ok (q, .folder))
    (hr : (t.rights q).read = true) :
    t.namesIn folder = t.nodes.keys.filterMap (childName? q) := by
  rw [Path.explicit] at h
  simp only [namesIn, h, if_pos hr]

theorem namesIn_of_not_listed (h : t.isListed (Path.explicit folder) = false) :
    t.namesIn folder = [] := by
  rw [Path.explicit, isListed] at h
  unfold namesIn
  split
  · next q hr =>
      rw [hr] at h
      simp only at h
      rw [if_neg (by simp [h])]
  · rfl

namespace IsFree

theorem name_ne_nil {n : Text} (h : t.IsFree (q ++ [n])) : n ≠ [] := by
  obtain ⟨-, folder, m, he, hs, -⟩ := h
  obtain ⟨-, rfl⟩ : q = folder ∧ n = m := by simpa using List.append_inj' he rfl
  rintro rfl
  exact hs stays_nil

variable (h : t.IsFree place)

include h

theorem isWanted {foldersOnly : Bool} {path : Text} (hw : t.isWanted foldersOnly path = true) :
    (t.addEmpty place).isWanted foldersOnly path = true := by
  unfold FileTree.isWanted at hw ⊢
  split at hw
  · rw [if_pos ‹_›, h.isFolder, hw]
  · rw [if_neg ‹_›, h.isFile hw]

/-- The names in a folder are the old ones and, at the end, perhaps that of the new file. -/
theorem namesIn (folder : Text) :
    ∃ new, (t.addEmpty place).namesIn folder = t.namesIn folder ++ new ∧
      ∀ n ∈ new, ∃ q, place = q ++ [n] ∧ t.resolve (Path.explicit folder) = .ok (q, .folder) := by
  have hlisted := h.agreesBut.isListed (Path.explicit folder)
  cases hf : t.isListed (Path.explicit folder) with
  | false =>
      have hf' := hlisted.trans hf
      exact ⟨[], by rw [namesIn_of_not_listed hf, namesIn_of_not_listed hf']; rfl, by simp⟩
  | true =>
      obtain ⟨q, hq, hr⟩ := isListed_iff.1 hf
      have hq' : (t.addEmpty place).resolve (Path.explicit folder) = .ok (q, .folder) :=
        h.agreesBut.resolve_folder_iff.2 hq
      have hr' : ((t.addEmpty place).rights q).read = true := hr
      refine ⟨([place] : List Place).filterMap (childName? q), ?_, ?_⟩
      · rw [namesIn_of_resolve hq hr, namesIn_of_resolve hq' hr', addEmpty,
          OrderedMap.keys_insert_of_get? h.1, List.filterMap_append]
      · intro n hn
        obtain ⟨p, hp, hc⟩ := List.mem_filterMap.1 hn
        obtain rfl := List.mem_singleton.1 hp
        exact ⟨q, childName?_eq_some hc, hq⟩

end IsFree

end FileTree

namespace Glob

open FileTree

variable {t : FileTree} {place : Place} {foldersOnly : Bool} {folder last : Text}

/-- The paths in a folder that the last name of a pattern stands for. -/
def pathsIn (t : FileTree) (foldersOnly : Bool) (last folder : Text) : List Text :=
  (lastNames t foldersOnly folder last).map (Path.join folder)

theorem filter_ite {α : Type} {p : α → Bool} {x : α} {b b' : Bool} (h : p x = true → b = b') :
    (if b then [x] else []).filter p = (if b' then [x] else []).filter p := by
  cases hx : p x with
  | true => rw [h hx]
  | false => cases b <;> cases b' <;> simp [hx]

theorem flatMap_filter {α β : Type} {p : α → Bool} {g : α → List β}
    (h : ∀ x, p x = false → g x = []) (xs : List α) : (xs.filter p).flatMap g = xs.flatMap g := by
  induction xs with
  | nil => rfl
  | cons x xs ih =>
      rw [List.flatMap_cons, ← ih]
      cases hx : p x with
      | false => rw [List.filter_cons_of_neg (by simp [hx]), h x hx, List.nil_append]
      | true => rw [List.filter_cons_of_pos hx, List.flatMap_cons]

/-- A path that is wanted is present, with the new file and without. -/
theorem isPresent_addEmpty (h : t.IsFree place) {path : Text} (hp : path ≠ [])
    (hw : t.isWanted foldersOnly path = true) :
    (t.addEmpty place).isPresent path = t.isPresent path := by
  obtain ⟨found, hr⟩ := exists_resolve_of_isWanted hp hw
  obtain ⟨found', hr'⟩ := exists_resolve_of_isWanted hp (h.isWanted hw)
  rw [isPresent_of_resolve hr, isPresent_of_resolve hr']

theorem pathsIn_addEmpty (h : t.IsFree place) (foldersOnly : Bool) (last folder : Text) :
    (pathsIn (t.addEmpty place) foldersOnly last folder).filter (t.isWanted foldersOnly) =
      (pathsIn t foldersOnly last folder).filter (t.isWanted foldersOnly) := by
  simp only [pathsIn, lastNames, h.isFolder]
  split
  · obtain ⟨new, hn, hnew⟩ := h.namesIn folder
    simp only [hn, List.filter_append, List.map_append, List.append_right_eq_self]
    rw [List.filter_eq_nil_iff]
    intro path hp hw
    obtain ⟨n, hmem, rfl⟩ := List.mem_map.1 hp
    obtain ⟨q, rfl, hf⟩ := hnew n (List.mem_filter.1 (List.mem_filter.1 hmem).1).1
    -- The name of the new file leads to nothing in the old tree.
    obtain ⟨found, hr⟩ := exists_resolve_of_isWanted (Path.join_ne_nil folder h.name_ne_nil) hw
    exact h.resolve_join hf hr
  · split
    · rfl
    · next he =>
        have hne : Path.join folder last ≠ [] := Path.join_ne_nil folder (by simpa using he)
        simp only [apply_ite (List.map (Path.join folder)), List.map_cons, List.map_nil]
        exact filter_ite (isPresent_addEmpty h hne)

/-- In what is no folder the last name of a pattern stands for nothing that is wanted. -/
theorem pathsIn_of_not_folder (foldersOnly : Bool) (hl : Path.slash ∉ last)
    (hf : t.isWanted true folder = false) :
    (pathsIn t foldersOnly last folder).filter (t.isWanted foldersOnly) = [] := by
  have hff : t.isFolder (Path.explicit folder) = false := hf
  rw [List.filter_eq_nil_iff]
  intro path hp hw
  obtain ⟨n, hn, rfl⟩ := List.mem_map.1 hp
  unfold lastNames at hn
  split at hn
  · have hlisted : t.isListed (Path.explicit folder) = false := by
      by_contra hlisted
      rw [isFolder_of_isListed (by simpa using hlisted)] at hff
      cases hff
    simp [namesIn_of_not_listed hlisted] at hn
  · split at hn
    · split at hn
      · next hf' =>
          obtain ⟨q, hr⟩ := isFolder_iff.1 hf'
          obtain ⟨⟨-, hne, -⟩, -⟩ := find_eq_ok_iff.1 (resolve_eq_ok_iff.1 hr)
          rw [Path.explicit_of_ne_nil hne, hf'] at hff
          cases hff
      · cases hn
    · next he =>
        have hne : Path.join folder last ≠ [] := Path.join_ne_nil folder (by simpa using he)
        split at hn
        · obtain rfl := List.mem_singleton.1 hn
          obtain ⟨⟨q, node⟩, hr⟩ := exists_resolve_of_isWanted hne hw
          obtain ⟨q', links, hq, -⟩ := find_join hl (resolve_eq_ok_iff.1 hr)
          rw [isFolder_iff.2 ⟨q', hq⟩] at hff
          cases hff
        · cases hn

/-- The paths that a pattern stands for and that are wanted are the same with a new file. -/
theorem expand_addEmpty (h : t.IsFree place) (foldersOnly : Bool) (pattern : Text) :
    (expand (t.addEmpty place) foldersOnly pattern).filter (t.isWanted foldersOnly) =
      (expand t foldersOnly pattern).filter (t.isWanted foldersOnly) := by
  induction foldersOnly, pattern using expand.induct t with
  | case1 foldersOnly pattern hw folder ih =>
      have hfolders (t' : FileTree) : expand t' foldersOnly pattern =
          (if NamePattern.hasWild folder then expand t' true folder else [folder]).flatMap
            (pathsIn t' foldersOnly (Path.base pattern)) := by
        rw [expand, dif_pos hw]
        rfl
      rw [hfolders, hfolders, List.filter_flatMap, List.filter_flatMap]
      simp only [pathsIn_addEmpty h]
      -- A path that is no folder adds nothing, so that only the wanted ones count.
      have hkeep := flatMap_filter (p := t.isWanted true) fun f =>
        pathsIn_of_not_folder foldersOnly (Path.slash_notMem_base pattern)
      rw [← hkeep, ← hkeep (if NamePattern.hasWild folder then expand t true folder else [folder])]
      split
      · rw [ih]
      · rfl
  | case2 foldersOnly pattern hw hb hf | case3 foldersOnly pattern hw hb hf =>
      rw [expand, dif_neg hw, if_pos hb, expand, dif_neg hw, if_pos hb, h.isFolder]
  | case4 foldersOnly pattern hw hb hf | case5 foldersOnly pattern hw hb hf =>
      rw [expand, dif_neg hw, if_neg hb, expand, dif_neg hw, if_neg hb]
      have hne : pattern ≠ [] := by
        rintro rfl
        exact hb rfl
      exact filter_ite (isPresent_addEmpty h hne)

end Glob

end CrateIndex
