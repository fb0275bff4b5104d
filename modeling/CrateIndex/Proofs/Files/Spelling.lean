import CrateIndex.Proofs.Files.Path
import Mathlib.Data.List.Induction

/-!
# Paths built name by name

A folder and names behind it make a path, and the path tells them: its last name and the folder
around it, and all its names.
-/

namespace CrateIndex.Path

variable {folder n p s : Text} {ns : List Text}

/-- A name that something in a folder can have. -/
structure IsEntryName (n : Text) : Prop where
  ne_nil : n ≠ []
  ne_dot : n ≠ "."
  ne_dots : n ≠ ".."
  slash_notMem : slash ∉ n

instance : DecidablePred IsEntryName := fun n =>
  decidable_of_iff (n ≠ [] ∧ n ≠ "." ∧ n ≠ ".." ∧ slash ∉ n)
    ⟨fun ⟨h1, h2, h3, h4⟩ => ⟨h1, h2, h3, h4⟩, fun ⟨h1, h2, h3, h4⟩ => ⟨h1, h2, h3, h4⟩⟩

/-- The folder has no slash at its end, unless it has nothing else. -/
def IsTrimmed (folder : Text) : Prop :=
  (∀ c ∈ folder, c = slash) ∨ ∃ front c, folder = front ++ [c] ∧ c ≠ slash

/-- The names that the names in a folder come behind. -/
def stem (folder : Text) : List Text :=
  if folder.all isSlash then folder.map fun _ => [] else names folder

/-- The path of names one behind the other, seen from a folder. -/
def spell (folder : Text) (ns : List Text) : Text := ns.foldl join folder

theorem all_isSlash_iff : folder.all isSlash = true ↔ ∀ c ∈ folder, c = slash := by
  simp [isSlash]

/-! ## Slashes at the end -/

/-- The text without the slashes at its end, unless there is nothing else. -/
def trimmed (s : Text) : Text := if s.all isSlash then s else Text.dropRightWhile isSlash s

theorem parent_eq_trimmed (p : Text) : parent p = trimmed (head p) := rfl

theorem exists_concat_of_notMem (hne : n ≠ []) (hn : slash ∉ n) :
    ∃ front c, n = front ++ [c] ∧ c ≠ slash := by
  obtain ⟨front, c, rfl⟩ := (List.eq_nil_or_concat n).resolve_left hne
  refine ⟨front, c, List.concat_eq_append, ?_⟩
  rintro rfl
  exact hn (by simp)

theorem trimmed_of_all_slash (h : ∀ c ∈ s, c = slash) : trimmed s = s :=
  if_pos (all_isSlash_iff.2 h)

theorem trimmed_concat {c : CodePoint} (hc : c ≠ slash) : trimmed (s ++ [c]) = s ++ [c] := by
  simp [trimmed, Text.dropRightWhile, isSlash, hc]

theorem trimmed_concat_slash (h : s.all isSlash = false) : trimmed (s ++ [slash]) = trimmed s := by
  have h' : (s ++ [slash]).all isSlash = false := by rw [List.all_append, h, Bool.false_and]
  rw [trimmed, h', trimmed, h]
  simp [Text.dropRightWhile, isSlash]

/-! ## A name behind a folder -/

theorem join_of_all_slash (hf : ∀ c ∈ folder, c = slash) (hn : slash ∉ n) :
    join folder n = folder ++ n := by
  rw [join, isAbsolute_eq_false hn, if_neg (by simp)]
  split
  · next hl => rw [List.getLast?_eq_none_iff.1 hl, List.nil_append]
  · next c hl =>
      obtain rfl := hf c (List.mem_of_getLast? hl)
      rw [if_pos (by simp [isSlash])]

theorem join_concat {front : Text} {c : CodePoint} (hc : c ≠ slash) (hn : slash ∉ n) :
    join (front ++ [c]) n = front ++ [c] ++ slash :: n := by
  rw [join, isAbsolute_eq_false hn, if_neg (by simp), List.getLast?_concat]
  simp [isSlash, hc]

/-- What a text without slashes is put behind stays its head, if it ends with a slash or is
empty. -/
theorem head_append_name (hp : p = [] ∨ ∃ q, p = q ++ [slash]) (hn : slash ∉ n) :
    head (p ++ n) = p ∧ base (p ++ n) = n := by
  have hrev : ∀ c ∈ n.reverse, (!isSlash c) = true := by
    intro c hc
    have hne : c ≠ slash := fun h => hn (h ▸ List.mem_reverse.1 hc)
    simpa [isSlash] using hne
  rw [head, base, List.reverse_append, List.dropWhile_append_of_pos hrev,
    List.takeWhile_append_of_pos hrev]
  rcases hp with rfl | ⟨q, rfl⟩
  · simp
  · simp [isSlash]

theorem nil_or_concat_slash (hf : ∀ c ∈ folder, c = slash) :
    folder = [] ∨ ∃ q, folder = q ++ [slash] := by
  rcases List.eq_nil_or_concat folder with rfl | ⟨q, c, rfl⟩
  · exact .inl rfl
  · obtain rfl := hf c (by simp)
    exact .inr ⟨q, List.concat_eq_append⟩

theorem base_join (hf : IsTrimmed folder) (hn : slash ∉ n) : base (join folder n) = n := by
  rcases hf with hf | ⟨front, c, rfl, hc⟩
  · rw [join_of_all_slash hf hn]
    exact (head_append_name (nil_or_concat_slash hf) hn).2
  · rw [join_concat hc hn, List.append_cons]
    exact (head_append_name (.inr ⟨_, rfl⟩) hn).2

theorem parent_join (hf : IsTrimmed folder) (hn : slash ∉ n) : parent (join folder n) = folder := by
  rw [parent_eq_trimmed]
  rcases hf with hf | ⟨front, c, rfl, hc⟩
  · rw [join_of_all_slash hf hn, (head_append_name (nil_or_concat_slash hf) hn).1,
      trimmed_of_all_slash hf]
  · have hhead : head (front ++ [c] ++ [slash] ++ n) = front ++ [c] ++ [slash] :=
      (head_append_name (.inr ⟨_, rfl⟩) hn).1
    have hall : (front ++ [c]).all isSlash = false := by simp [isSlash, hc]
    rw [join_concat hc hn, List.append_cons, hhead, trimmed_concat_slash hall, trimmed_concat hc]

/-- With a name behind it a folder has no slash at its end. -/
theorem exists_join_eq (folder : Text) (hn : IsEntryName n) :
    ∃ front c, join folder n = front ++ [c] ∧ c ≠ slash := by
  obtain ⟨front, c, rfl, hc⟩ := exists_concat_of_notMem hn.ne_nil hn.slash_notMem
  rcases join_cases folder hn.slash_notMem with ⟨-, hj⟩ | ⟨-, q, -, hj⟩
  · exact ⟨front, c, hj, hc⟩
  · exact ⟨q ++ slash :: front, c, by rw [hj]; simp, hc⟩

/-! ## All names of a path -/

theorem names_append_of_all_slash (hf : ∀ c ∈ folder, c = slash) (s : Text) :
    names (folder ++ s) = (folder.map fun _ => []) ++ names s := by
  induction folder with
  | nil => rfl
  | cons c folder ih =>
      obtain ⟨rfl, hmore⟩ := List.forall_mem_cons.1 hf
      rw [List.cons_append, names, Text.splitOn, if_pos rfl, ← names, ih hmore]
      rfl

theorem stem_of_all_slash (hf : ∀ c ∈ folder, c = slash) : stem folder = folder.map fun _ => [] :=
  if_pos (all_isSlash_iff.2 hf)

theorem stem_concat {front : Text} {c : CodePoint} (hc : c ≠ slash) :
    stem (front ++ [c]) = names (front ++ [c]) := by
  refine if_neg fun h => hc (all_isSlash_iff.1 h c ?_)
  simp

theorem names_join (hf : IsTrimmed folder) (hn : slash ∉ n) :
    names (join folder n) = stem folder ++ [n] := by
  rcases hf with hf | ⟨front, c, rfl, hc⟩
  · rw [join_of_all_slash hf hn, names_append_of_all_slash hf, stem_of_all_slash hf, names,
      Text.splitOn_of_notMem hn]
  · rw [join_concat hc hn, names_append_name _ hn, stem_concat hc]

theorem stem_join (hf : IsTrimmed folder) (hn : IsEntryName n) :
    stem (join folder n) = stem folder ++ [n] := by
  rw [← names_join hf hn.slash_notMem]
  obtain ⟨front, c, hj, hc⟩ := exists_join_eq folder hn
  rw [hj, stem_concat hc]

theorem spell_concat (folder : Text) (ns : List Text) (n : Text) :
    spell folder (ns ++ [n]) = join (spell folder ns) n := by
  rw [spell, List.foldl_append]
  rfl

theorem isTrimmed_spell (hf : IsTrimmed folder) (hns : ∀ n ∈ ns, IsEntryName n) :
    IsTrimmed (spell folder ns) := by
  rcases List.eq_nil_or_concat ns with rfl | ⟨ms, n, rfl⟩
  · exact hf
  · rw [List.concat_eq_append, spell_concat]
    exact .inr (exists_join_eq _ (hns n (by simp)))

theorem stem_spell (hf : IsTrimmed folder) (hns : ∀ n ∈ ns, IsEntryName n) :
    stem (spell folder ns) = stem folder ++ ns := by
  induction ns using List.reverseRecOn with
  | nil => rw [List.append_nil]; rfl
  | append_singleton ms n ih =>
      have hms : ∀ m ∈ ms, IsEntryName m := fun m hm => hns m (List.mem_append_left [n] hm)
      rw [spell_concat, stem_join (isTrimmed_spell hf hms) (hns n (by simp)), ih hms,
        List.append_assoc]

theorem names_spell (hf : IsTrimmed folder) (hns : ∀ n ∈ ns, IsEntryName n) (hne : ns ≠ []) :
    names (spell folder ns) = stem folder ++ ns := by
  obtain ⟨ms, n, rfl⟩ := (List.eq_nil_or_concat ns).resolve_left hne
  rw [List.concat_eq_append] at hns ⊢
  have hms : ∀ m ∈ ms, IsEntryName m := fun m hm => hns m (List.mem_append_left [n] hm)
  rw [spell_concat, names_join (isTrimmed_spell hf hms) (hns n (by simp)).slash_notMem,
    stem_spell hf hms, List.append_assoc]

theorem names_injective : Function.Injective names := by
  intro p q h
  rw [← Text.join_splitOn slash p, ← Text.join_splitOn slash q]
  exact congrArg (Text.join [slash]) h

/-- A path is told by its names. -/
theorem eq_spell_of_names (hf : IsTrimmed folder) (hns : ∀ n ∈ ns, IsEntryName n) (hne : ns ≠ [])
    (h : names p = stem folder ++ ns) : p = spell folder ns :=
  names_injective (h.trans (names_spell hf hns hne).symm)

/-! ## Folders of a path -/

/-- The path goes on from the folder, with a slash between unless the folder is all slashes. -/
inductive GoesOn : Text → Text → Prop
  | root {folder rest : Text} (hf : ∀ c ∈ folder, c = slash) (hr : rest.head? ≠ some slash) :
      GoesOn folder (folder ++ rest)
  | behind {front rest : Text} {c : CodePoint} (hc : c ≠ slash) :
      GoesOn (front ++ [c]) (front ++ [c] ++ slash :: rest)

theorem GoesOn.isTrimmed (h : GoesOn folder p) : IsTrimmed folder := by
  cases h with
  | root hf hr => exact .inl hf
  | @behind front rest c hc => exact .inr ⟨front, c, rfl, hc⟩

/-- The names of a path are those that its folder gives, and at least one more. -/
theorem GoesOn.exists_names_eq (h : GoesOn folder p) :
    ∃ ns, ns ≠ [] ∧ names p = stem folder ++ ns := by
  cases h with
  | @root folder rest hf hr =>
      refine ⟨names rest, Text.splitOn_ne_nil slash rest, ?_⟩
      rw [names_append_of_all_slash hf, stem_of_all_slash hf]
  | @behind front rest c hc =>
      refine ⟨names rest, Text.splitOn_ne_nil slash rest, ?_⟩
      rw [stem_concat hc, names, names, names, Text.splitOn_append_cons]

theorem GoesOn.exists_eq (h : GoesOn folder p) : ∃ rest, p = folder ++ rest := by
  cases h with
  | root hf hr => exact ⟨_, rfl⟩
  | behind hc => exact ⟨_, rfl⟩

theorem GoesOn.trans (h : GoesOn folder s) (hs : GoesOn s p) (hne : folder ≠ s) :
    GoesOn folder p := by
  obtain ⟨more, rfl⟩ := hs.exists_eq
  cases h with
  | @root folder rest hf hr =>
      rw [List.append_assoc]
      refine .root hf ?_
      cases rest with
      | nil => simp at hne
      | cons c rest => exact hr
  | behind hc =>
      rw [List.append_assoc]
      exact .behind hc

theorem head_cases (p : Text) : head p = [] ∨ ∃ q, head p = q ++ [slash] := by
  cases h : p.reverse.dropWhile fun c => !isSlash c with
  | nil => exact .inl (by rw [head, h]; rfl)
  | cons c rest =>
      have hc := List.head?_dropWhile_not (fun c => !isSlash c) p.reverse
      rw [h] at hc
      obtain rfl : c = slash := by simpa [isSlash] using hc
      exact .inr ⟨rest.reverse, by rw [head, h, List.reverse_cons]⟩

/-- A text that is not all slashes is cut before those at its end. -/
theorem exists_trimmed_eq (h : s.all isSlash = false) :
    ∃ front c slashes, trimmed s = front ++ [c] ∧ c ≠ slash ∧
      s = front ++ [c] ++ slashes ∧ ∀ d ∈ slashes, d = slash := by
  have hsplit : s.reverse.takeWhile isSlash ++ s.reverse.dropWhile isSlash = s.reverse :=
    List.takeWhile_append_dropWhile
  cases hd : s.reverse.dropWhile isSlash with
  | nil =>
      rw [List.dropWhile_eq_nil_iff] at hd
      rw [List.all_eq_true.2 fun c hc => hd c (List.mem_reverse.2 hc)] at h
      cases h
  | cons c rest =>
      have hc := List.head?_dropWhile_not isSlash s.reverse
      rw [hd] at hc hsplit
      refine ⟨rest.reverse, c, (s.reverse.takeWhile isSlash).reverse, ?_, ?_, ?_, ?_⟩
      · rw [trimmed, h, if_neg Bool.false_ne_true, Text.dropRightWhile, hd, List.reverse_cons]
      · simpa [isSlash] using hc
      · rw [← List.reverse_cons, ← List.reverse_append, hsplit, List.reverse_reverse]
      · intro d hd
        simpa [isSlash] using List.mem_takeWhile_imp (List.mem_reverse.1 hd)

theorem goesOn_parent (p : Text) : GoesOn (parent p) p := by
  suffices h : GoesOn (parent p) (head p ++ base p) by rwa [head_append_base] at h
  cases hall : (head p).all isSlash with
  | true =>
      have hslashes := all_isSlash_iff.1 hall
      rw [parent_eq_trimmed, trimmed_of_all_slash hslashes]
      exact .root hslashes fun h => slash_notMem_base p (List.mem_of_head? h)
  | false =>
      obtain ⟨front, c, slashes, htrimmed, hc, hhead, hslashes⟩ := exists_trimmed_eq hall
      rw [parent_eq_trimmed, htrimmed, hhead]
      cases slashes with
      | nil =>
          -- The head of a path ends with a slash.
          rcases head_cases p with h | ⟨q, h⟩
          · simp [h] at hall
          · rw [h, List.append_nil] at hhead
            obtain ⟨-, he⟩ := List.append_inj' hhead rfl
            exact absurd (List.cons.inj he).1.symm hc
      | cons d slashes =>
          obtain rfl := hslashes d List.mem_cons_self
          rw [List.append_assoc]
          exact .behind hc

/-! ## Folders from names -/

variable {ns' : List Text}

/-- The folder that is written with a slash behind each of the names. -/
def folderOf (ns : List Text) : Text := trimmed (Text.ended [slash] ns)

theorem ended_nil_or_concat_slash (ns : List Text) :
    Text.ended [slash] ns = [] ∨ ∃ q, Text.ended [slash] ns = q ++ [slash] := by
  rcases List.eq_nil_or_concat ns with rfl | ⟨ms, n, rfl⟩
  · exact .inl rfl
  · exact .inr ⟨Text.ended [slash] ms ++ n, by simp⟩

/-- A path is the text of some first names and that of the others. -/
theorem eq_ended_append (hne : ns' ≠ []) (h : names p = ns ++ ns') :
    p = Text.ended [slash] ns ++ Text.join [slash] ns' := by
  rw [← Text.join_append _ _ hne, ← h, names, Text.join_splitOn]

/-- The folder in front of a last name. -/
theorem parent_ended_append (ns : List Text) (hn : slash ∉ n) :
    parent (Text.ended [slash] ns ++ n) = folderOf ns := by
  rw [parent_eq_trimmed, (head_append_name (ended_nil_or_concat_slash ns) hn).1, folderOf]

theorem folderOf_concat (ns : List Text) (hne : n ≠ []) (hn : slash ∉ n) :
    folderOf (ns ++ [n]) = Text.ended [slash] ns ++ n := by
  obtain ⟨front, c, rfl, hc⟩ := exists_concat_of_notMem hne hn
  have hall : (Text.ended [slash] ns ++ front ++ [c]).all isSlash = false := by simp [isSlash, hc]
  calc folderOf (ns ++ [front ++ [c]])
    _ = trimmed (Text.ended [slash] ns ++ front ++ [c] ++ [slash]) := by simp [folderOf]
    _ = Text.ended [slash] ns ++ front ++ [c] := by
        rw [trimmed_concat_slash hall, trimmed_concat hc]
    _ = Text.ended [slash] ns ++ (front ++ [c]) := List.append_assoc _ _ _

theorem parent_folderOf_concat (ns : List Text) (hne : n ≠ []) (hn : slash ∉ n) :
    parent (folderOf (ns ++ [n])) = folderOf ns := by
  rw [folderOf_concat ns hne hn, parent_ended_append ns hn]

theorem parent_eq_folderOf (h : names p = ns ++ [n]) : parent p = folderOf ns := by
  have hn : slash ∉ n := slash_notMem_of_mem_names (p := p) (by simp [h])
  have hp : p = Text.ended [slash] ns ++ n := by
    rw [eq_ended_append (List.cons_ne_nil _ _) h, Text.join, List.intercalate_singleton]
  rw [hp, parent_ended_append ns hn]

theorem folderOf_stem (hf : IsTrimmed folder) : folderOf (stem folder) = folder := by
  have hn : slash ∉ ("f" : Text) := by decide
  rw [← parent_eq_folderOf (names_join hf hn), parent_join hf hn]

/-- The folder of the names that a folder gives and those behind them. -/
theorem folderOf_stem_append (hf : IsTrimmed folder) (hns : ∀ n ∈ ns, IsEntryName n) :
    folderOf (stem folder ++ ns) = spell folder ns := by
  rw [← stem_spell hf hns, folderOf_stem (isTrimmed_spell hf hns)]

end CrateIndex.Path
