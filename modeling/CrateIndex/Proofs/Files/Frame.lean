import CrateIndex.Proofs.Files.Tree
import CrateIndex.Proofs.Files.Walk
import CrateIndex.Proofs.OrderedMap
import CrateIndex.Proofs.Result

/-!
# What a change of one file changes

A new file, or more bytes in one that is there, changes what is found behind those paths that lead
to it, and behind no others. No folder comes or goes by it.
-/

namespace CrateIndex

namespace Utf8

theorem size_append (s t : Text) : size (s ++ t) = size s + size t := by
  simp [size]

end Utf8

namespace FileTree

variable {t t' : FileTree} {aim : Aim} {place q : Place} {node : Node} {path folder n p : Text}
  {target : Target}

/-! ## Paths -/

/-- The path is none of those that are refused for their text alone. -/
def Followable (path : Text) : Prop :=
  ¬ HoldsNul path ∧ path ≠ [] ∧ Utf8.size path < pathLimit

theorem find_eq_walk (h : Followable path) :
    t.find aim path = t.walk aim linkLimit (t.start path) (Path.names path) := by
  obtain ⟨hn, he, hl⟩ := h
  rw [find, if_neg (by simpa [HoldsNul] using hn), if_neg (by simpa using he),
    if_neg (Nat.not_le.2 hl)]

theorem find_eq_error (t : FileTree) (aim : Aim) (h : ¬ Followable path) :
    ∃ e, t.find aim path = .error e := by
  rw [find]
  split
  · exact ⟨_, rfl⟩
  · next hn =>
      split
      · exact ⟨_, rfl⟩
      · next he =>
          split
          · exact ⟨_, rfl⟩
          · next hl =>
              exact absurd ⟨by simpa [HoldsNul] using hn, by simpa using he, Nat.lt_of_not_le hl⟩ h

theorem find_eq_ok_iff :
    t.find aim path = .ok target ↔
      Followable path ∧ t.walk aim linkLimit (t.start path) (Path.names path) = .ok target := by
  by_cases hf : Followable path
  · rw [find_eq_walk hf]
    simp [hf]
  · obtain ⟨e, he⟩ := find_eq_error t aim hf
    simp [he, hf]

theorem Followable.left {s : Text} (h : Followable (p ++ s)) (hp : p ≠ []) : Followable p := by
  obtain ⟨hn, -, hl⟩ := h
  rw [Utf8.size_append] at hl
  refine ⟨?_, hp, Nat.lt_of_le_of_lt (Nat.le_add_right _ _) hl⟩
  rintro ⟨c, hc, hz⟩
  exact hn ⟨c, List.mem_append_left s hc, hz⟩

theorem resolve_eq_ok_iff :
    t.resolve path = .ok (q, node) ↔ t.find .linkEnd path = .ok (.present q node) := by
  rw [resolve]
  cases h : t.find .linkEnd path with
  | error e => exact ⟨fun h => (by cases h), fun h => (by cases h)⟩
  | ok target =>
      cases target with
      | present q' node' =>
          constructor
          · intro h
            cases h
            rfl
          · intro h
            cases h
            rfl
      | absent q' => exact ⟨fun h => (by cases h), fun h => (by cases h)⟩

theorem isFolder_iff : t.isFolder path = true ↔ ∃ q, t.resolve path = .ok (q, .folder) := by
  unfold isFolder
  split
  · next q h => simp [h]
  · next hn =>
      simp only [reduceCtorEq, false_iff, not_exists]
      exact fun q h => hn q h

theorem isListed_iff :
    t.isListed path = true ↔ ∃ q, t.resolve path = .ok (q, .folder) ∧ (t.rights q).read = true := by
  unfold isListed
  split
  · next q h => simp [h]
  · next hn =>
      simp only [Bool.false_eq_true, false_iff, not_exists, not_and]
      exact fun q h => absurd h (hn q)

theorem isOpen_iff : t.isOpen path = true ↔
    ∃ q, t.resolve path = .ok (q, .folder) ∧ (t.rights q).read = true ∧
      (t.rights q).enter = true := by
  unfold isOpen
  split
  · next q h => simp [h]
  · next hn =>
      simp only [Bool.false_eq_true, false_iff, not_exists, not_and]
      exact fun q h => absurd h (hn q)

theorem isFolder_of_isListed (h : t.isListed path = true) : t.isFolder path = true := by
  obtain ⟨q, hq, -⟩ := isListed_iff.1 h
  exact isFolder_iff.2 ⟨q, hq⟩

theorem isListed_of_isOpen (h : t.isOpen path = true) : t.isListed path = true := by
  obtain ⟨q, hq, hr, -⟩ := isOpen_iff.1 h
  exact isListed_iff.2 ⟨q, hq, hr⟩

theorem isFile_iff :
    t.isFile path = true ↔ ∃ q content, t.resolve path = .ok (q, .file content) := by
  unfold isFile
  split
  · next q content h => simp [h]
  · next hn =>
      simp only [reduceCtorEq, false_iff, not_exists]
      exact fun q content h => hn q content h

theorem isPresent_of_resolve (h : t.resolve path = .ok (q, node)) : t.isPresent path = true := by
  obtain ⟨hf, hw⟩ := find_eq_ok_iff.1 (resolve_eq_ok_iff.1 h)
  obtain ⟨q', node', hw⟩ := walk_lastName hw
  rw [isPresent, find_eq_ok_iff.2 ⟨hf, hw⟩]

/-! ## Names behind a folder -/

theorem enter_of_admits (hn : n ≠ []) (h : t.admits q n = true) : (t.rights q).enter = true := by
  simpa [admits, hn] using h

theorem resolve_current (he : (t.rights t.current).enter = true) :
    t.resolve (Path.explicit []) = .ok (t.current, .folder) := by
  have ha : t.admits t.current "." = true := by simp [admits, he]
  have hn : Path.names "." = ([("." : Text)] : List Text) := by decide
  have hs : t.start "." = t.current := rfl
  refine resolve_eq_ok_iff.2 (find_eq_ok_iff.2 ⟨⟨?_, by decide, by decide⟩, ?_⟩)
  · rintro ⟨c, hc, hz⟩
    obtain rfl : c = '.' := by simpa [Path.explicit, Text.ofString] using hc
    cases hz
  · show t.walk .linkEnd linkLimit (t.start ".") (Path.names ".") = _
    rw [hn, hs, walk_stays ha (.inr rfl), walk]

/-- What a name behind a folder leads to. The folder is there, and the name goes on from it. -/
theorem find_join (hn : Path.slash ∉ n) (h : t.find .linkEnd (Path.join folder n) = .ok target) :
    ∃ q links, t.resolve (Path.explicit folder) = .ok (q, .folder) ∧
      t.walk .linkEnd links q [n] = .ok target := by
  obtain ⟨hf, hw⟩ := find_eq_ok_iff.1 h
  rcases Path.join_cases folder hn with ⟨rfl, hj⟩ | ⟨hne, p, hp, hj⟩
  · rw [hj, Path.names, Text.splitOn_of_notMem hn, start, Path.isAbsolute_eq_false hn] at hw
    have hne : n ≠ [] := by
      rintro rfl
      exact hf.2.1 hj
    have he := enter_of_admits hne (admits_of_walk hw)
    exact ⟨t.current, linkLimit, resolve_current he, hw⟩
  · rw [hj, Path.names_append_name p hn] at hw
    rcases walk_append t linkLimit (t.start (p ++ Path.slash :: n)) (Path.names p) with
      ⟨links, q, hq⟩ | herr
    · refine ⟨q, links, ?_, (hq [n]).symm.trans hw⟩
      obtain ⟨s, hs⟩ : ∃ s, Path.join folder n = folder ++ s := by
        rcases hp with rfl | rfl
        · exact ⟨Path.slash :: n, hj⟩
        · exact ⟨n, by simpa using hj⟩
      have hstart : t.start folder = t.start (p ++ Path.slash :: n) := by
        rw [← hj, hs, start, start, Path.isAbsolute_append hne]
      rw [Path.explicit_of_ne_nil hne]
      refine resolve_eq_ok_iff.2 (find_eq_ok_iff.2 ⟨(hs ▸ hf).left hne, ?_⟩)
      rw [hstart]
      rcases hp with rfl | rfl
      · simpa [walk] using hq []
      · rw [Path.names_append_slash, hq, walk_stays (admits_nil _ _) stays_nil, walk]
    · obtain ⟨e, he⟩ := herr [n] (by simp)
      cases he.symm.trans hw

/-! ## Trees that differ in a file -/

theorem AgreesBut.symm (h : AgreesBut place t t') : AgreesBut place t' t :=
  ⟨h.current.symm, h.rights.symm, fun q hq => (h.elsewhere q hq).symm, h.after, h.before⟩

theorem AgreesBut.find (h : AgreesBut place t t') (aim : Aim) (path : Text) :
    t'.find aim path = t.find aim path ∨
      EndsAt place (t.find aim path) ∧ EndsAt place (t'.find aim path) := by
  have hs : t'.start path = t.start path := by rw [start, start, h.current]
  by_cases hf : Followable path
  · rw [find_eq_walk hf, find_eq_walk hf, hs]
    exact h.walk aim linkLimit (t.start path) (Path.names path)
  · have hends (t : FileTree) : EndsAt place (t.find aim path) :=
      fun target ht => absurd (find_eq_ok_iff.1 ht).1 hf
    exact .inr ⟨hends t, hends t'⟩

/-- What is read behind a path to a file; nothing where there is none. -/
def held (t : FileTree) (path : Text) : Except PathError (List UInt8) :=
  if t.isFile path then t.read path else .ok []

/-- The path leads to a file, and it is that at the place. -/
def LeadsTo (t : FileTree) (path : Text) (place : Place) : Prop :=
  ∃ content, t.resolve path = .ok (place, .file content)

/-- What stands behind a path stands there in both trees, unless it is the file at the place. -/
theorem AgreesBut.resolve_iff (h : AgreesBut place t t')
    (hn : ∀ content, (q, node) ≠ (place, .file content)) :
    t'.resolve path = .ok (q, node) ↔ t.resolve path = .ok (q, node) := by
  rw [resolve_eq_ok_iff, resolve_eq_ok_iff]
  rcases h.find .linkEnd path with he | ⟨he, he'⟩
  · rw [he]
  · have hends {r : Except PathError Target} (hr : EndsAt place r) :
        r ≠ .ok (.present q node) := by
      intro hf
      rcases hr _ hf with hc | ⟨content, hc⟩ <;> cases hc
      exact hn content rfl
    exact ⟨fun hf => absurd hf (hends he'), fun hf => absurd hf (hends he)⟩

theorem AgreesBut.resolve_folder_iff (h : AgreesBut place t t') :
    t'.resolve path = .ok (q, .folder) ↔ t.resolve path = .ok (q, .folder) :=
  h.resolve_iff (by simp)

theorem AgreesBut.isFolder (h : AgreesBut place t t') (path : Text) :
    t'.isFolder path = t.isFolder path := by
  rw [Bool.eq_iff_iff, isFolder_iff, isFolder_iff]
  simp only [h.resolve_folder_iff]

theorem AgreesBut.isListed (h : AgreesBut place t t') (path : Text) :
    t'.isListed path = t.isListed path := by
  rw [Bool.eq_iff_iff, isListed_iff, isListed_iff]
  simp only [h.resolve_folder_iff, h.rights]

theorem AgreesBut.isOpen (h : AgreesBut place t t') (path : Text) :
    t'.isOpen path = t.isOpen path := by
  rw [Bool.eq_iff_iff, isOpen_iff, isOpen_iff]
  simp only [h.resolve_folder_iff, h.rights]

/-- A file that is not the one at the place is in both trees, and reads the same. -/
theorem AgreesBut.resolve_file (h : AgreesBut place t t') (hf : t.isFile path = true)
    (hp : ¬ t.LeadsTo path place) :
    ∃ q content, t.resolve path = .ok (q, .file content) ∧
      t'.resolve path = .ok (q, .file content) := by
  obtain ⟨q, content, hr⟩ := isFile_iff.1 hf
  refine ⟨q, content, hr, (h.resolve_iff ?_).2 hr⟩
  intro content' hc
  cases hc
  exact hp ⟨content, hr⟩

theorem AgreesBut.read (h : AgreesBut place t t') (hf : t.isFile path = true)
    (hp : ¬ t.LeadsTo path place) : t'.read path = t.read path := by
  obtain ⟨q, content, hr, hr'⟩ := h.resolve_file hf hp
  rw [read_of_resolve hr, read_of_resolve hr', h.rights]

theorem AgreesBut.isFile (h : AgreesBut place t t') (hf : t.isFile path = true)
    (hp : ¬ t.LeadsTo path place) : t'.isFile path = true := by
  obtain ⟨q, content, -, hr'⟩ := h.resolve_file hf hp
  exact isFile_iff.2 ⟨q, content, hr'⟩

/-! ## Bytes at the end of a file -/

theorem append_eq_or_agreesBut (t : FileTree) (place : Place) (bytes : List UInt8) :
    t.append place bytes = t ∨ AgreesBut place t (t.append place bytes) := by
  unfold append
  split
  · next content hg =>
      refine .inr ⟨rfl, rfl, fun q hq => ?_, ?_, ?_⟩
      · rw [OrderedMap.get?_insert, if_neg hq]
      · intro node hn
        exact ⟨content, Option.some.inj (hn.symm.trans hg)⟩
      · intro node hn
        rw [OrderedMap.get?_insert, if_pos rfl] at hn
        exact ⟨_, (Option.some.inj hn).symm⟩
  · exact .inl rfl

/-- Bytes at the end of a file are not read behind a path that leads elsewhere. -/
theorem read_append (hf : t.isFile path = true) (hp : ¬ t.LeadsTo path place)
    (bytes : List UInt8) : (t.append place bytes).read path = t.read path := by
  rcases append_eq_or_agreesBut t place bytes with he | h
  · rw [he]
  · exact h.read hf hp

@[simp] theorem append_nil (t : FileTree) (place : Place) : t.append place [] = t := by
  unfold append
  split
  · next content hg =>
      have hi : t.nodes.insert place (.file (content ++ [])) = t.nodes := by
        rw [List.append_nil]
        exact OrderedMap.insert_of_get? hg
      rw [hi]
  · rfl

/-! ## A new file -/

/-- The tree with an empty file at the place. -/
def addEmpty (t : FileTree) (place : Place) : FileTree :=
  { t with nodes := t.nodes.insert place (.file []) }

/-- Nothing stands at the place, and its last name is one that a file can have. -/
def IsFree (t : FileTree) (place : Place) : Prop :=
  t.nodes.get? place = none ∧
    ∃ folder n, place = folder ++ [n] ∧ ¬ Stays n ∧ n ≠ ↑".." ∧ Path.slash ∉ n

theorem openToAppend_cases (h : t.openToAppend path = .ok (t', place)) :
    t' = t ∨ t.IsFree place ∧ t' = t.addEmpty place := by
  cases hf : t.find .newFile path with
  | error e =>
      rw [openToAppend, hf] at h
      cases h
  | ok target =>
      simp only [openToAppend, hf, Result.ok_bind] at h
      cases target with
      | present q node =>
          left
          cases node with
          | folder | link _ => cases h
          | file _ | null | stream _ =>
              simp only at h
              split at h <;> cases h
              rfl
      | absent q =>
          simp only at h
          split at h <;> cases h
          refine .inr ⟨?_, rfl⟩
          exact walk_absent (fun _ => Path.slash_notMem_of_mem_names) (find_eq_ok_iff.1 hf).2

namespace IsFree

variable (h : t.IsFree place)

include h

theorem agreesBut : AgreesBut place t (t.addEmpty place) := by
  refine ⟨rfl, rfl, fun q hq => ?_, ?_, ?_⟩
  · rw [addEmpty, OrderedMap.get?_insert, if_neg hq]
  · intro node hn
    rw [h.1] at hn
    cases hn
  · intro node hn
    rw [addEmpty, OrderedMap.get?_insert, if_pos rfl] at hn
    exact ⟨[], (Option.some.inj hn).symm⟩

theorem not_leadsTo (path : Text) : ¬ t.LeadsTo path place := by
  rintro ⟨content, hr⟩
  have hg := walk_file (find_eq_ok_iff.1 (resolve_eq_ok_iff.1 hr)).2
  rw [h.1] at hg
  cases hg

theorem isFile (hf : t.isFile path = true) : (t.addEmpty place).isFile path = true :=
  h.agreesBut.isFile hf (h.not_leadsTo path)

theorem isFolder (path : Text) : (t.addEmpty place).isFolder path = t.isFolder path :=
  h.agreesBut.isFolder path

theorem isOpen (path : Text) : (t.addEmpty place).isOpen path = t.isOpen path :=
  h.agreesBut.isOpen path

/-- A file that is not the new one holds what it held. -/
theorem read_of_not_leadsTo (hf : (t.addEmpty place).isFile path = true)
    (hl : ¬ (t.addEmpty place).LeadsTo path place) :
    (t.addEmpty place).read path = t.held path := by
  have hold : t.isFile path = true := h.agreesBut.symm.isFile hf hl
  rw [held, if_pos hold, h.agreesBut.read hold (h.not_leadsTo path)]

/-- The new file holds nothing, as if it were not there, if it may be read. -/
theorem read (hr : (t.rights place).read = true) (hf : (t.addEmpty place).isFile path = true) :
    (t.addEmpty place).read path = t.held path := by
  by_cases hl : (t.addEmpty place).LeadsTo path place
  · obtain ⟨content, hp⟩ := hl
    have hg := walk_file (find_eq_ok_iff.1 (resolve_eq_ok_iff.1 hp)).2
    rw [addEmpty, OrderedMap.get?_insert, if_pos rfl] at hg
    cases hg
    have hnew : t.isFile path = false := by
      by_contra hold
      rw [Bool.not_eq_false] at hold
      obtain ⟨q, content, hq, hq'⟩ := h.agreesBut.resolve_file hold (h.not_leadsTo path)
      rw [hp] at hq'
      cases hq'
      exact h.not_leadsTo path ⟨[], hq⟩
    have hr' : ((t.addEmpty place).rights place).read = true := hr
    rw [read_of_resolve hp, if_pos hr', held, if_neg (by simp [hnew])]
    rfl
  · exact h.read_of_not_leadsTo hf hl

end IsFree

/-- The last name of a free place, seen from the folder around it, leads to nothing. -/
theorem IsFree.resolve_join (h : t.IsFree (q ++ [n]))
    (hf : t.resolve (Path.explicit folder) = .ok (q, .folder)) {found : Place × Node} :
    t.resolve (Path.join folder n) ≠ .ok found := by
  obtain ⟨q', node⟩ := found
  intro hr
  obtain ⟨hg, folder', n', he, hs, hd, hsl⟩ := h
  obtain ⟨rfl, rfl⟩ : q = folder' ∧ n = n' := by simpa using List.append_inj' he rfl
  obtain ⟨q'', links, hf', hw⟩ := find_join hsl (resolve_eq_ok_iff.1 hr)
  cases hf.symm.trans hf'
  cases leads_of_walk hs hd hw with
  | present hg' => cases hg.symm.trans hg'
  | folder hg' hw => cases hg.symm.trans hg'
  | link hg' hl hw => cases hg.symm.trans hg'

/-! ## A tree with one file -/

variable (content : List UInt8)

theorem get?_single (q : Place) :
    (single content).nodes.get? q = if q = [("f" : Text)] then some (.file content) else none := by
  simp [single, OrderedMap.ofList, OrderedMap.insertAll, OrderedMap.get?_insert]

theorem walk_single (hs : ¬ Stays n) (hd : n ≠ ↑"..") (hl : ¬ nameLimit < Utf8.size n) :
    (single content).walk .newFile linkLimit [] [[], n] =
      .ok (if n = "f" then .present ["f"] (.file content) else .absent [n]) := by
  have ha (q : Place) (n : Text) : (single content).admits q n = true := by simp [admits, single]
  rw [walk_stays (ha _ _) stays_nil, walk_enter (ha _ _) hs hd, if_neg (by simp), if_neg hl,
    get?_single]
  by_cases hn : n = "f"
  · subst hn
    rfl
  · have hq : ([] : Place) ++ [n] ≠ [("f" : Text)] := by simpa using hn
    rw [if_neg hq, if_neg hn]
    rfl

theorem openToAppend_single :
    (single content).openToAppend ((single content).absolute "f") =
      .ok (single content, ["f"]) := by
  have ha : (single content).absolute "f" = "/f" := by
    show Path.absolute [Path.slash] "f" = _
    decide
  have hf : (single content).find .newFile "/f" = .ok (.present ["f"] (.file content)) := by
    rw [find, if_neg (by decide), if_neg (by decide), if_neg (by decide)]
    exact walk_single content (by unfold Stays; decide) (by decide) (by decide)
  rw [ha, openToAppend, hf]
  rfl

theorem openToAppend_single_new :
    (single content).openToAppend ((single content).absolute "g") =
      .ok ((single content).addEmpty ["g"], ["g"]) := by
  have ha : (single content).absolute "g" = "/g" := by
    show Path.absolute [Path.slash] "g" = _
    decide
  have hf : (single content).find .newFile "/g" = .ok (.absent ["g"]) := by
    rw [find, if_neg (by decide), if_neg (by decide), if_neg (by decide)]
    exact walk_single content (by unfold Stays; decide) (by decide) (by decide)
  rw [ha, openToAppend, hf]
  rfl

theorem append_single (bytes : List UInt8) :
    (single content).append ["f"] bytes = single (content ++ bytes) := by
  rw [append, get?_single]
  rfl

end FileTree

end CrateIndex
