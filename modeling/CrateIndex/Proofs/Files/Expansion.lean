import CrateIndex.Proofs.Files.Glob
import CrateIndex.Proofs.Files.NamePattern
import CrateIndex.Proofs.Files.Spelling
import Mathlib.Data.List.Forall2
import Mathlib.Data.List.Nodup

/-!
# What a pattern stands for

A pattern stands for those paths whose names its names stand for, one by one. The walk from folder
to folder finds each of them that leads to something, once, and nothing else, if it can list the
folders in which it looks for names.
-/

namespace CrateIndex

open CrateIndex.Path (IsEntryName IsTrimmed GoesOn folderOf stem spell)

theorem forall₂_append_left_iff {α β : Type} {R : α → β → Prop} {xs xs' : List α} {ys : List β} :
    List.Forall₂ R (xs ++ xs') ys ↔
      ∃ zs zs', List.Forall₂ R xs zs ∧ List.Forall₂ R xs' zs' ∧ ys = zs ++ zs' := by
  constructor
  · intro h
    induction xs generalizing ys with
    | nil => exact ⟨[], ys, .nil, h, rfl⟩
    | cons x xs ih =>
        cases h with
        | cons hx h =>
            obtain ⟨zs, zs', hzs, hzs', rfl⟩ := ih h
            exact ⟨_ :: zs, zs', .cons hx hzs, hzs', rfl⟩
  · rintro ⟨zs, zs', h, h', rfl⟩
    exact List.rel_append h h'

namespace FileTree

variable {t : FileTree} {foldersOnly : Bool} {folder n : Text}

/-- Every name in the tree is one that something in a folder can have. -/
def Proper (t : FileTree) : Prop := ∀ place ∈ t.nodes.keys, ∀ n ∈ place, IsEntryName n

instance : DecidablePred Proper := fun t =>
  inferInstanceAs (Decidable (∀ place ∈ t.nodes.keys, ∀ n ∈ place, IsEntryName n))

theorem isEntryName_of_mem_namesIn (ht : t.Proper) (h : n ∈ t.namesIn folder) : IsEntryName n := by
  unfold namesIn at h
  split at h
  · next q _ =>
      split at h
      · obtain ⟨place, hplace, hn⟩ := List.mem_filterMap.1 h
        refine ht place hplace n ?_
        rw [childName?_eq_some hn]
        simp
      · cases h
  · cases h

theorem isListed_of_mem_namesIn (h : n ∈ t.namesIn folder) :
    t.isListed (Path.explicit folder) = true := by
  by_contra hl
  rw [namesIn_of_not_listed (by simpa using hl)] at h
  cases h

theorem nodup_namesIn (t : FileTree) (folder : Text) : (t.namesIn folder).Nodup := by
  unfold namesIn
  split
  · split
    · refine List.Nodup.filterMap ?_ t.nodes.nodup
      intro place place' n h h'
      rw [childName?_eq_some h, childName?_eq_some h']
    · exact List.nodup_nil
  · exact List.nodup_nil

/-- The path leads to a folder that can be entered. -/
def Enterable (t : FileTree) (path : Text) : Prop :=
  ∃ q, t.resolve path = .ok (q, .folder) ∧ (t.rights q).enter = true

theorem Enterable.isFolder (h : t.Enterable folder) : t.isFolder folder = true := by
  obtain ⟨q, hq, -⟩ := h
  exact isFolder_iff.2 ⟨q, hq⟩

theorem isOpen_of_enterable (h : t.Enterable folder) (hl : t.isListed folder = true) :
    t.isOpen folder = true := by
  obtain ⟨q, hq, he⟩ := h
  obtain ⟨q', hq', hr⟩ := isListed_iff.1 hl
  cases hq.symm.trans hq'
  exact isOpen_iff.2 ⟨q, hq, hr, he⟩

/-- What is wanted behind a folder has a name in that folder, which can be entered. The name is seen
if the folder can be listed. -/
theorem wanted_join (hn : IsEntryName n) (h : t.isWanted foldersOnly (Path.join folder n) = true) :
    t.Enterable (Path.explicit folder) ∧
      (t.isListed (Path.explicit folder) = true → n ∈ t.namesIn folder) := by
  obtain ⟨⟨place, node⟩, hr⟩ := exists_resolve_of_isWanted (Path.join_ne_nil folder hn.ne_nil) h
  obtain ⟨q, links, hfolder, hw⟩ := find_join hn.slash_notMem (resolve_eq_ok_iff.1 hr)
  refine ⟨⟨q, hfolder, enter_of_admits hn.ne_nil (admits_of_walk hw)⟩, fun hl => ?_⟩
  have hstays : ¬ Stays n := fun hs => hs.elim hn.ne_nil hn.ne_dot
  have hnode : ∃ node, t.nodes.get? (q ++ [n]) = some node := by
    cases leads_of_walk hstays hn.ne_dots hw with
    | present hg => exact ⟨_, hg⟩
    | folder hg _ => exact ⟨_, hg⟩
    | link hg _ _ => exact ⟨_, hg⟩
  obtain ⟨node, hg⟩ := hnode
  obtain ⟨q', hq', hread⟩ := isListed_iff.1 hl
  cases hfolder.symm.trans hq'
  rw [namesIn_of_resolve hfolder hread, List.mem_filterMap]
  refine ⟨q ++ [n], OrderedMap.mem_keys_iff.2 (by simp [hg]), ?_⟩
  simp [childName?]

end FileTree

namespace Glob

open FileTree NamePattern

variable {t : FileTree} {foldersOnly : Bool} {part folder c n p q : Text} {cs qs : List Text}

/-! ## Names -/

/-- A name of a pattern stands for the names that it matches if it is wild, else for itself. -/
def StandsFor (c n : Text) : Prop := if hasWild c then IsEntryName n ∧ Matches c n else n = c

theorem standsFor_of_wild (hc : hasWild c = true) :
    StandsFor c n ↔ IsEntryName n ∧ Matches c n := by
  rw [StandsFor, if_pos hc]

theorem standsFor_of_not_wild (hc : hasWild c = false) : StandsFor c n ↔ n = c := by
  rw [StandsFor, if_neg (by simp [hc])]

theorem StandsFor.isEntryName (h : StandsFor c n) (hc : IsEntryName c) : IsEntryName n := by
  cases hw : hasWild c with
  | true => exact ((standsFor_of_wild hw).1 h).1
  | false =>
      rw [(standsFor_of_not_wild hw).1 h]
      exact hc

theorem isEntryName_of_standsFor (h : List.Forall₂ StandsFor cs qs)
    (hcs : ∀ c ∈ cs, IsEntryName c) : ∀ n ∈ qs, IsEntryName n := by
  induction h with
  | nil => exact List.forall_mem_nil _
  | cons hn _ ih =>
      rw [List.forall_mem_cons] at hcs ⊢
      exact ⟨hn.isEntryName hcs.1, ih hcs.2⟩

theorem standsFor_iff_eq (hcs : ∀ c ∈ cs, hasWild c = false) :
    List.Forall₂ StandsFor cs qs ↔ qs = cs := by
  induction cs generalizing qs with
  | nil => exact List.forall₂_nil_left_iff
  | cons c cs ih =>
      obtain ⟨hc, hcs⟩ := List.forall_mem_cons.1 hcs
      simp [List.forall₂_cons_left_iff, standsFor_of_not_wild hc, ih hcs, eq_comm]

theorem hasWild_append (s s' : Text) : hasWild (s ++ s') = (hasWild s || hasWild s') :=
  List.any_append

theorem hasWild_join (folder : Text) (hn : Path.slash ∉ n) :
    hasWild (Path.join folder n) = (hasWild folder || hasWild n) := by
  have hslash (s : Text) : hasWild (Path.slash :: s) = hasWild s := rfl
  have hend : hasWild [Path.slash] = false := rfl
  rcases Path.join_cases folder hn with ⟨rfl, hj⟩ | ⟨-, p, rfl | rfl, hj⟩
  · rw [hj]
    rfl
  · rw [hj, hasWild_append, hslash]
  · rw [hj, hasWild_append, hasWild_append, hslash, hend, Bool.or_false]

theorem hasWild_spell (hp : hasWild part = false) (hcs : ∀ c ∈ cs, IsEntryName c) :
    hasWild (spell part cs) = cs.any hasWild := by
  induction cs using List.reverseRecOn with
  | nil => exact hp
  | append_singleton cs c ih =>
      rw [Path.spell_concat, hasWild_join _ (hcs c (by simp)).slash_notMem, List.any_append,
        ih fun c hc => hcs c (List.mem_append_left _ hc)]
      simp

/-! ## One name behind a folder -/

theorem mem_lastNames_of_wild (hc : hasWild c = true) : n ∈ lastNames t foldersOnly folder c ↔
    n ∈ t.namesIn folder ∧ Matches c n ∧
      (foldersOnly = true → t.isFolder (Path.join folder n) = true) := by
  rw [lastNames, if_pos hc, List.mem_filter, List.mem_filter, takes_iff, and_assoc]
  cases foldersOnly with
  | true => simp
  | false => simp

theorem lastNames_of_not_wild (hc : hasWild c = false) (hne : c ≠ []) :
    lastNames t foldersOnly folder c =
      if t.isPresent (Path.join folder c) then [c] else [] := by
  rw [lastNames, if_neg (by simp [hc]), if_neg (by simpa using hne)]

theorem standsFor_of_mem_lastNames (ht : t.Proper) (hc : IsEntryName c)
    (h : n ∈ lastNames t foldersOnly folder c) : StandsFor c n := by
  cases hw : hasWild c with
  | true =>
      obtain ⟨hn, hm, -⟩ := (mem_lastNames_of_wild hw).1 h
      exact (standsFor_of_wild hw).2 ⟨isEntryName_of_mem_namesIn ht hn, hm⟩
  | false =>
      rw [lastNames_of_not_wild hw hc.ne_nil] at h
      split at h
      · exact (standsFor_of_not_wild hw).2 (List.mem_singleton.1 h)
      · cases h

theorem mem_lastNames_of_wanted (hc : IsEntryName c) (h : StandsFor c n)
    (hl : hasWild c = true → t.isListed (Path.explicit folder) = true)
    (hw : t.isWanted foldersOnly (Path.join folder n) = true) :
    n ∈ lastNames t foldersOnly folder c := by
  have hn := h.isEntryName hc
  have hne := Path.join_ne_nil folder hn.ne_nil
  cases hwild : hasWild c with
  | true =>
      refine (mem_lastNames_of_wild hwild).2 ⟨(wanted_join hn hw).2 (hl hwild), ?_, ?_⟩
      · exact ((standsFor_of_wild hwild).1 h).2
      · rintro rfl
        rwa [isWanted, if_pos rfl, Path.explicit_of_ne_nil hne] at hw
  | false =>
      obtain rfl := (standsFor_of_not_wild hwild).1 h
      obtain ⟨⟨place, node⟩, hr⟩ := exists_resolve_of_isWanted hne hw
      rw [lastNames_of_not_wild hwild hc.ne_nil, if_pos (isPresent_of_resolve hr)]
      exact List.mem_singleton_self n

theorem isListed_of_mem_lastNames (hc : hasWild c = true)
    (h : n ∈ lastNames t foldersOnly folder c) : t.isListed (Path.explicit folder) = true :=
  isListed_of_mem_namesIn ((mem_lastNames_of_wild hc).1 h).1

theorem nodup_lastNames (t : FileTree) (foldersOnly : Bool) (folder c : Text) :
    (lastNames t foldersOnly folder c).Nodup := by
  unfold lastNames
  split
  · exact ((nodup_namesIn t folder).filter _).filter _
  · split <;> split <;> simp

/-! ## Folders that are listed -/

/-- Each folder in which a wild name of a pattern stands for one of a path can be listed. Both come
behind the same first names. -/
def Listed (t : FileTree) (pre cs qs : List Text) : Prop :=
  ∀ i c, cs[i]? = some c → hasWild c = true →
    t.isListed (Path.explicit (folderOf (pre ++ qs.take i))) = true

theorem listed_of_not_wild (pre qs : List Text) (hcs : ∀ c ∈ cs, hasWild c = false) :
    Listed t pre cs qs := by
  intro i c hi hw
  rw [hcs c (List.mem_of_getElem? hi)] at hw
  cases hw

theorem listed_concat_iff {pre : List Text} (h : cs.length = qs.length) :
    Listed t pre (cs ++ [c]) (qs ++ [n]) ↔ Listed t pre cs qs ∧
      (hasWild c = true → t.isListed (Path.explicit (folderOf (pre ++ qs))) = true) := by
  have htake {i : Nat} (hi : i ≤ qs.length) : (qs ++ [n]).take i = qs.take i :=
    List.take_append_of_le_length hi
  constructor
  · intro hl
    refine ⟨fun i c' hi hw => ?_, fun hw => ?_⟩
    · obtain ⟨hlt, -⟩ := List.getElem?_eq_some_iff.1 hi
      rw [← htake (h ▸ hlt.le)]
      exact hl i c' (by rw [List.getElem?_append_left hlt, hi]) hw
    · have hl := hl cs.length c (by simp) hw
      rwa [h, htake le_rfl, List.take_length] at hl
  · rintro ⟨hl, hc⟩ i c' hi hw
    obtain ⟨hlt, -⟩ := List.getElem?_eq_some_iff.1 hi
    rw [List.length_append, List.length_singleton] at hlt
    rcases Nat.lt_succ_iff_lt_or_eq.1 hlt with hlt | rfl
    · rw [htake (h ▸ hlt.le)]
      exact hl i c' (by rwa [List.getElem?_append_left hlt] at hi) hw
    · rw [List.getElem?_concat_length, Option.some.injEq] at hi
      rw [h, htake le_rfl, List.take_length]
      exact hc (hi ▸ hw)

/-- First names that are not wild do not count. -/
theorem listed_append_iff {pre : List Text} (hpre : ∀ n ∈ pre, hasWild n = false) :
    Listed t [] (pre ++ cs) (pre ++ qs) ↔ Listed t pre cs qs := by
  have htake (i : Nat) : (pre ++ qs).take (pre.length + i) = pre ++ qs.take i :=
    List.take_length_add_append i
  have hget (i : Nat) : (pre ++ cs)[pre.length + i]? = cs[i]? := by
    rw [List.getElem?_append_right (Nat.le_add_right _ _), Nat.add_sub_cancel_left]
  constructor
  · intro hl i c hi hw
    have hl := hl (pre.length + i) c ((hget i).trans hi) hw
    rwa [List.nil_append, htake] at hl
  · intro hl i c hi hw
    by_cases hlt : i < pre.length
    · rw [List.getElem?_append_left hlt] at hi
      rw [hpre c (List.mem_of_getElem? hi)] at hw
      cases hw
    · obtain ⟨j, rfl⟩ := Nat.exists_eq_add_of_le (Nat.le_of_not_lt hlt)
      rw [List.nil_append, htake]
      exact hl j c ((hget j).symm.trans hi) hw

/-! ## From folder to folder -/

/-- The paths that a pattern stands for; one that is not wild counts whether it is there or not. -/
def candidates (t : FileTree) (foldersOnly : Bool) (pattern : Text) : List Text :=
  if hasWild pattern then expand t foldersOnly pattern else [pattern]

theorem candidates_of_not_wild (h : hasWild p = false) : candidates t foldersOnly p = [p] := by
  rw [candidates, if_neg (by simp [h])]

theorem candidates_join (hf : IsTrimmed folder) (hc : Path.slash ∉ c)
    (hw : hasWild (Path.join folder c) = true) :
    candidates t foldersOnly (Path.join folder c) =
      (candidates t true folder).flatMap (pathsIn t foldersOnly c) := by
  rw [candidates, if_pos hw, expand, dif_pos hw, Path.parent_join hf hc, Path.base_join hf hc]
  rfl

/-- The fixed part of a pattern. -/
structure IsFixed (part : Text) : Prop where
  trimmed : IsTrimmed part
  not_wild : hasWild part = false

theorem candidates_fixed (hp : IsFixed part) : candidates t foldersOnly (spell part []) = [part] :=
  candidates_of_not_wild hp.not_wild

/-- With one more name a pattern is taken as it is, if no name is wild, or the name is looked for in
each folder that the pattern without it stands for. -/
theorem candidates_concat (hp : IsFixed part) (hcs : ∀ x ∈ cs ++ [c], IsEntryName x) :
    (∀ x ∈ cs ++ [c], hasWild x = false) ∧
        candidates t foldersOnly (spell part (cs ++ [c])) = [spell part (cs ++ [c])] ∨
      candidates t foldersOnly (spell part (cs ++ [c])) =
        (candidates t true (spell part cs)).flatMap (pathsIn t foldersOnly c) := by
  cases hw : hasWild (spell part (cs ++ [c])) with
  | false =>
      have hnone := hw
      rw [hasWild_spell hp.not_wild hcs, List.any_eq_false] at hnone
      exact .inl ⟨by simpa using hnone, candidates_of_not_wild hw⟩
  | true =>
      obtain ⟨hcs, hc⟩ := List.forall_mem_append.1 hcs
      rw [Path.spell_concat] at hw ⊢
      exact .inr (candidates_join (Path.isTrimmed_spell hp.trimmed hcs)
        (hc c (List.mem_singleton_self c)).slash_notMem hw)

/-- What is found has the names that the pattern's names stand for. -/
theorem exists_names_of_mem (ht : t.Proper) (hp : IsFixed part) (hcs : ∀ c ∈ cs, IsEntryName c)
    (h : q ∈ candidates t foldersOnly (spell part cs)) :
    ∃ qs, List.Forall₂ StandsFor cs qs ∧ Listed t (stem part) cs qs ∧ q = spell part qs := by
  -- The last name comes off first, as in the search itself, which then wants folders only.
  induction cs using List.reverseRecOn generalizing foldersOnly q with
  | nil =>
      rw [candidates_fixed hp, List.mem_singleton] at h
      exact ⟨[], .nil, listed_of_not_wild _ _ (List.forall_mem_nil _), h⟩
  | append_singleton cs c ih =>
      obtain ⟨hcs', hc⟩ := List.forall_mem_append.1 hcs
      rcases candidates_concat hp hcs with ⟨hwild, he⟩ | he
      · rw [he, List.mem_singleton] at h
        exact ⟨_, (standsFor_iff_eq hwild).2 rfl, listed_of_not_wild _ _ hwild, h⟩
      · rw [he, List.mem_flatMap] at h
        obtain ⟨f, hf, hq⟩ := h
        obtain ⟨qs, hqs, hl, rfl⟩ := ih hcs' hf
        obtain ⟨n, hn, rfl⟩ := List.mem_map.1 hq
        have hcn := standsFor_of_mem_lastNames ht (hc c (List.mem_singleton_self c)) hn
        refine ⟨qs ++ [n], List.rel_append hqs (.cons hcn .nil),
          (listed_concat_iff hqs.length_eq).2 ⟨hl, fun hw => ?_⟩,
          (Path.spell_concat part qs n).symm⟩
        rw [Path.folderOf_stem_append hp.trimmed (isEntryName_of_standsFor hqs hcs')]
        exact isListed_of_mem_lastNames hw hn

/-- What the pattern's names stand for is found, if it is wanted and the folders are listed. -/
theorem mem_candidates_of_wanted (hp : IsFixed part) (hcs : ∀ c ∈ cs, IsEntryName c)
    (hqs : List.Forall₂ StandsFor cs qs) (hl : Listed t (stem part) cs qs)
    (hw : t.isWanted foldersOnly (spell part qs) = true) :
    spell part qs ∈ candidates t foldersOnly (spell part cs) := by
  induction cs using List.reverseRecOn generalizing foldersOnly qs with
  | nil =>
      obtain rfl := List.forall₂_nil_left_iff.1 hqs
      rw [candidates_fixed hp]
      exact List.mem_singleton_self part
  | append_singleton cs c ih =>
      obtain ⟨hcs', hc⟩ := List.forall_mem_append.1 hcs
      rw [List.forall_mem_singleton] at hc
      rcases candidates_concat hp hcs with ⟨hwild, he⟩ | he
      · rw [he, (standsFor_iff_eq hwild).1 hqs]
        exact List.mem_singleton_self _
      · obtain ⟨qs, ns, hqs', hns, rfl⟩ := forall₂_append_left_iff.1 hqs
        obtain ⟨n, ns, hn, hnil, rfl⟩ := List.forall₂_cons_left_iff.1 hns
        obtain rfl := List.forall₂_nil_left_iff.1 hnil
        obtain ⟨hl, hlc⟩ := (listed_concat_iff hqs'.length_eq).1 hl
        rw [Path.folderOf_stem_append hp.trimmed (isEntryName_of_standsFor hqs' hcs')] at hlc
        rw [Path.spell_concat] at hw
        rw [he, Path.spell_concat, List.mem_flatMap]
        have hfolder := (wanted_join (hn.isEntryName hc) hw).1.isFolder
        refine ⟨spell part qs, ih hcs' hqs' hl hfolder, List.mem_map_of_mem ?_⟩
        exact mem_lastNames_of_wanted hc hn hlc hw

theorem parent_of_mem_pathsIn (ht : t.Proper) (hf : IsTrimmed folder) (hc : IsEntryName c)
    (h : q ∈ pathsIn t foldersOnly c folder) : Path.parent q = folder := by
  obtain ⟨n, hn, rfl⟩ := List.mem_map.1 h
  have hn := ((standsFor_of_mem_lastNames ht hc hn).isEntryName hc).slash_notMem
  exact Path.parent_join hf hn

theorem nodup_pathsIn (ht : t.Proper) (hf : IsTrimmed folder) (hc : IsEntryName c) :
    (pathsIn t foldersOnly c folder).Nodup := by
  refine (nodup_lastNames t foldersOnly folder c).map_on fun n hn m hm he => ?_
  have hbase {x : Text} (hx : x ∈ lastNames t foldersOnly folder c) :
      Path.base (Path.join folder x) = x :=
    Path.base_join hf ((standsFor_of_mem_lastNames ht hc hx).isEntryName hc).slash_notMem
  rw [← hbase hn, ← hbase hm, he]

/-- No path is found twice. -/
theorem nodup_candidates (ht : t.Proper) (hp : IsFixed part) (hcs : ∀ c ∈ cs, IsEntryName c) :
    (candidates t foldersOnly (spell part cs)).Nodup := by
  induction cs using List.reverseRecOn generalizing foldersOnly with
  | nil =>
      rw [candidates_fixed hp]
      exact List.nodup_singleton part
  | append_singleton cs c ih =>
      obtain ⟨hcs', hc⟩ := List.forall_mem_append.1 hcs
      rw [List.forall_mem_singleton] at hc
      rcases candidates_concat hp hcs with ⟨-, he⟩ | he
      · rw [he]
        exact List.nodup_singleton _
      · have htrimmed : ∀ f ∈ candidates t true (spell part cs), IsTrimmed f := by
          intro f hf
          obtain ⟨qs, hqs, -, rfl⟩ := exists_names_of_mem ht hp hcs' hf
          exact Path.isTrimmed_spell hp.trimmed (isEntryName_of_standsFor hqs hcs')
        rw [he, List.nodup_flatMap]
        refine ⟨fun f hf => nodup_pathsIn ht (htrimmed f hf) hc, ?_⟩
        -- Paths in different folders are different, because each tells its folder.
        refine (ih hcs').pairwise_of_forall_ne fun f hf g hg hne q hq hq' => hne ?_
        rw [← parent_of_mem_pathsIn ht (htrimmed f hf) hc hq,
          parent_of_mem_pathsIn ht (htrimmed g hg) hc hq']

/-! ## Whole patterns -/

/-- The names of a pattern behind its fixed part. -/
def below (pattern : Text) : List Text :=
  (Path.names pattern).drop (stem (fixedPart (Path.parent pattern))).length

theorem goesOn_fixedPart {s : Text} (h : GoesOn s p) : GoesOn (fixedPart s) p := by
  fun_induction fixedPart s with
  | case1 s hw ih =>
      refine ih ((Path.goesOn_parent s).trans h fun he => ?_)
      obtain ⟨c, hc, hs⟩ := exists_wild hw
      have hlt := Path.length_parent_lt hc hs
      rw [he] at hlt
      exact Nat.lt_irrefl _ hlt
  | case2 s hw => exact h

theorem hasWild_fixedPart (s : Text) : hasWild (fixedPart s) = false := by
  fun_induction fixedPart s with
  | case1 s hw ih => exact ih
  | case2 s hw => simpa using hw

theorem isFixed_fixedPart (pattern : Text) : IsFixed (fixedPart (Path.parent pattern)) where
  trimmed := (goesOn_fixedPart (Path.goesOn_parent pattern)).isTrimmed
  not_wild := hasWild_fixedPart _

theorem names_eq_below (pattern : Text) : below pattern ≠ [] ∧
    Path.names pattern = stem (fixedPart (Path.parent pattern)) ++ below pattern := by
  obtain ⟨ns, hne, hns⟩ := (goesOn_fixedPart (Path.goesOn_parent pattern)).exists_names_eq
  rw [below, hns, List.drop_left]
  exact ⟨hne, rfl⟩

theorem eq_spell_below (h : ∀ n ∈ below p, IsEntryName n) :
    p = spell (fixedPart (Path.parent p)) (below p) := by
  obtain ⟨hne, hns⟩ := names_eq_below p
  exact Path.eq_spell_of_names (isFixed_fixedPart p).trimmed h hne hns

theorem not_wild_of_mem_names (hp : hasWild p = false) : ∀ n ∈ Path.names p, hasWild n = false := by
  intro n hn
  rw [hasWild, List.any_eq_false] at hp ⊢
  exact fun c hc => hp c (Text.mem_of_mem_splitOn hn hc)

theorem not_wild_of_mem_stem (hp : hasWild part = false) : ∀ n ∈ stem part, hasWild n = false := by
  intro n hn
  unfold stem at hn
  split at hn
  · obtain ⟨-, -, rfl⟩ := List.mem_map.1 hn
    rfl
  · exact not_wild_of_mem_names hp n hn

/-- The path has as many names as the pattern, and the pattern's stand for them one by one. -/
def NamesMatch (pattern path : Text) : Prop :=
  List.Forall₂ StandsFor (Path.names pattern) (Path.names path)

theorem NamesMatch.eq_of_not_wild (h : NamesMatch p q) (hp : hasWild p = false) : q = p :=
  Path.names_injective ((standsFor_iff_eq (not_wild_of_mem_names hp)).1 h)

theorem namesMatch_iff (h : ∀ n ∈ below p, IsEntryName n) : NamesMatch p q ↔
    ∃ qs, List.Forall₂ StandsFor (below p) qs ∧ q = spell (fixedPart (Path.parent p)) qs := by
  obtain ⟨hne, hp⟩ := names_eq_below p
  have hfixed := isFixed_fixedPart p
  have hstem {ns : List Text} : List.Forall₂ StandsFor (stem (fixedPart (Path.parent p))) ns ↔
      ns = stem (fixedPart (Path.parent p)) :=
    standsFor_iff_eq (not_wild_of_mem_stem hfixed.not_wild)
  have hqne {qs : List Text} (hqs : List.Forall₂ StandsFor (below p) qs) : qs ≠ [] := by
    rintro rfl
    exact hne (List.forall₂_nil_right_iff.1 hqs)
  rw [NamesMatch, hp]
  constructor
  · intro hq
    obtain ⟨front, qs, hfront, hqs, hnames⟩ := forall₂_append_left_iff.1 hq
    rw [hstem.1 hfront] at hnames
    exact ⟨qs, hqs, Path.eq_spell_of_names hfixed.trimmed (isEntryName_of_standsFor hqs h)
      (hqne hqs) hnames⟩
  · rintro ⟨qs, hqs, rfl⟩
    rw [Path.names_spell hfixed.trimmed (isEntryName_of_standsFor hqs h) (hqne hqs)]
    exact List.rel_append (hstem.2 rfl) hqs

/-- Each folder in which a wild name of the pattern stands for one of the path can be listed. -/
def FoldersListed (t : FileTree) (pattern path : Text) : Prop :=
  Listed t [] (Path.names pattern) (Path.names path)

theorem foldersListed_spell_iff (h : ∀ n ∈ below p, IsEntryName n)
    (hqs : List.Forall₂ StandsFor (below p) qs) :
    FoldersListed t p (spell (fixedPart (Path.parent p)) qs) ↔
      Listed t (stem (fixedPart (Path.parent p))) (below p) qs := by
  obtain ⟨hne, hp⟩ := names_eq_below p
  have hfixed := isFixed_fixedPart p
  have hqne : qs ≠ [] := by
    rintro rfl
    exact hne (List.forall₂_nil_right_iff.1 hqs)
  rw [FoldersListed, hp, Path.names_spell hfixed.trimmed (isEntryName_of_standsFor hqs h) hqne,
    listed_append_iff (not_wild_of_mem_stem hfixed.not_wild)]

theorem base_ne_nil (h : ∀ n ∈ below p, IsEntryName n) : Path.base p ≠ [] := by
  obtain ⟨ns, n, hns⟩ := (List.eq_nil_or_concat (below p)).resolve_left (names_eq_below p).1
  have hp := eq_spell_below h
  rw [hns, List.concat_eq_append] at h hp
  have hn := h n (by simp)
  have hfolder := Path.isTrimmed_spell (isFixed_fixedPart p).trimmed
    fun m hm => h m (List.mem_append_left [n] hm)
  rw [hp, Path.spell_concat, Path.base_join hfolder hn.slash_notMem]
  exact hn.ne_nil

theorem expand_of_not_wild (hw : hasWild p = false) (hb : Path.base p ≠ []) :
    expand t foldersOnly p = if t.isPresent p then [p] else [] := by
  rw [expand, dif_neg (by simp [hw]), if_neg (by simpa using hb)]

/-- Among the paths that lead to a file, a pattern stands for those whose names match and are
seen. -/
theorem mem_expand_iff (ht : t.Proper) (h : ∀ n ∈ below p, IsEntryName n) (hq : t.isFile q = true) :
    q ∈ expand t false p ↔ NamesMatch p q ∧ FoldersListed t p q := by
  have hp := eq_spell_below h
  have hfixed := isFixed_fixedPart p
  have hcandidates : q ∈ expand t false p ↔ q ∈ candidates t false p := by
    cases hw : hasWild p with
    | true => rw [candidates, if_pos hw]
    | false =>
        obtain ⟨place, content, hr⟩ := isFile_iff.1 hq
        rw [expand_of_not_wild hw (base_ne_nil h), candidates_of_not_wild hw, List.mem_singleton]
        constructor
        · intro hm
          split at hm
          · exact List.mem_singleton.1 hm
          · cases hm
        · rintro rfl
          rw [if_pos (isPresent_of_resolve hr)]
          exact List.mem_singleton_self q
  rw [hcandidates, namesMatch_iff h]
  constructor
  · intro hc
    rw [hp] at hc
    obtain ⟨qs, hqs, hl, rfl⟩ := exists_names_of_mem ht hfixed h hc
    exact ⟨⟨qs, hqs, rfl⟩, (foldersListed_spell_iff h hqs).2 hl⟩
  · rintro ⟨⟨qs, hqs, rfl⟩, hl⟩
    rw [foldersListed_spell_iff h hqs] at hl
    have hc : _ ∈ candidates t false _ := mem_candidates_of_wanted hfixed h hqs hl hq
    rwa [← hp] at hc

theorem nodup_expand (ht : t.Proper) (h : ∀ n ∈ below p, IsEntryName n) :
    (expand t foldersOnly p).Nodup := by
  cases hw : hasWild p with
  | true =>
      have hc : (candidates t foldersOnly _).Nodup := nodup_candidates ht (isFixed_fixedPart p) h
      rwa [← eq_spell_below h, candidates, if_pos hw] at hc
  | false =>
      rw [expand_of_not_wild hw (base_ne_nil h)]
      split
      · exact List.nodup_singleton p
      · exact List.nodup_nil

/-- What is wanted behind a folder lies in folders that are entered from there on. -/
theorem wanted_spell (hqs : ∀ n ∈ qs, IsEntryName n) (hne : qs ≠ [])
    (hw : t.isWanted foldersOnly (spell part qs) = true) : t.Enterable (Path.explicit part) := by
  induction qs using List.reverseRecOn generalizing foldersOnly with
  | nil => exact absurd rfl hne
  | append_singleton qs n ih =>
      obtain ⟨hqs, hn⟩ := List.forall_mem_append.1 hqs
      rw [Path.spell_concat] at hw
      have hfolder := (wanted_join (hn n (List.mem_singleton_self n)) hw).1
      by_cases hnil : qs = []
      · rwa [hnil] at hfolder
      · have hwanted : t.isWanted true (spell part qs) = true := hfolder.isFolder
        exact ih hqs hnil hwanted

/-- Where names match and lead to a file, the pattern's root is a folder that is entered. -/
theorem enterable_root (h : ∀ n ∈ below p, IsEntryName n) (hm : NamesMatch p q)
    (hq : t.isFile q = true) : t.Enterable (root p) := by
  obtain ⟨qs, hqs, rfl⟩ := (namesMatch_iff h).1 hm
  have hne : qs ≠ [] := by
    rintro rfl
    exact (names_eq_below p).1 (List.forall₂_nil_right_iff.1 hqs)
  have hw : t.isWanted false _ = true := hq
  exact wanted_spell (isEntryName_of_standsFor hqs h) hne hw

end Glob

end CrateIndex
