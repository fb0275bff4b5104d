import CrateIndex.Proofs.Files.Expansion

/-!
# The root of a pattern

The search for the root climbs from folder to folder and leaves a name that is not empty at each
step. It ends in the names before the first that is a pattern, or before the last name.
-/

namespace CrateIndex

open NamePattern

namespace Path

variable {s : Text} {ns : List Text}

theorem hasWild_all_slash (h : s.all isSlash = true) : hasWild s = false := by
  rw [hasWild, List.any_eq_false]
  intro c hc
  rw [all_isSlash_iff.1 h c hc]
  decide

theorem hasWild_trimmed (s : Text) : hasWild (trimmed s) = hasWild s := by
  cases hall : s.all isSlash with
  | true => rw [trimmed_of_all_slash (all_isSlash_iff.1 hall)]
  | false =>
      obtain ⟨front, c, slashes, htrimmed, -, hs, hslashes⟩ := exists_trimmed_eq hall
      have hw := hasWild_all_slash (all_isSlash_iff.2 hslashes)
      rw [htrimmed, hs, Glob.hasWild_append _ slashes, hw, Bool.or_false]

theorem hasWild_ended (ns : List Text) : hasWild (Text.ended [slash] ns) = ns.any hasWild := by
  induction ns with
  | nil => rfl
  | cons n ns ih =>
      have hslash : hasWild [slash] = false := by decide
      rw [Text.ended_cons, Glob.hasWild_append, Glob.hasWild_append, hslash, ih, List.any_cons,
        Bool.false_or]

theorem hasWild_folderOf (ns : List Text) : hasWild (folderOf ns) = ns.any hasWild := by
  rw [folderOf, hasWild_trimmed, hasWild_ended]

/-- An empty name behind one that is a pattern adds nothing to a folder. -/
theorem folderOf_concat_empty (h : ns.any hasWild = true) :
    folderOf (ns ++ [([] : Text)]) = folderOf ns := by
  have hall : (Text.ended [slash] ns).all isSlash = false := by
    by_contra hall
    rw [← hasWild_ended, hasWild_all_slash (by simpa using hall)] at h
    cases h
  rw [folderOf, Text.ended_append, folderOf, ← trimmed_concat_slash hall]
  rfl

end Path

namespace Glob

open CrateIndex.Path (slash folderOf)

variable {s r : Text} {k : Nat} {ns : List Text}

/-- The search for a fixed folder goes from one folder to another in a number of steps. -/
inductive Climbs : Nat → Text → Text → Prop
  | done {s : Text} (h : hasWild s = false) : Climbs 0 s s
  | up {k : Nat} {s r : Text} (h : hasWild s = true) (hr : Climbs k (Path.parent s) r) :
      Climbs (k + 1) s r

theorem Climbs.fixedPart_eq (h : Climbs k s r) : fixedPart s = r := by
  induction h with
  | done h => rw [fixedPart, dif_neg (by simp [h])]
  | up h hr ih => rw [fixedPart, dif_pos h, ih]

theorem root_eq_explicit (pattern : Text) :
    root pattern = Path.explicit (fixedPart (Path.parent pattern)) := rfl

theorem not_wild_root (pattern : Text) : hasWild (root pattern) = false := by
  rw [root_eq_explicit, Path.explicit]
  split
  · decide
  · exact hasWild_fixedPart _

theorem climbs_of_not_wild (h : ∀ n ∈ ns, hasWild n = false) :
    Climbs 0 (folderOf ns) (folderOf ns) := by
  refine .done ?_
  rw [Path.hasWild_folderOf, List.any_eq_false]
  simpa using h

/-- Each step leaves a name that is not empty, the one that is a pattern last. -/
theorem climbs_folderOf {pre post : List Text} {c : Text} (hpre : ∀ n ∈ pre, hasWild n = false)
    (hc : hasWild c = true) (h : ∀ n ∈ c :: post, slash ∉ n) :
    Climbs ((c :: post).filter fun n => !n.isEmpty).length (folderOf (pre ++ c :: post))
      (folderOf pre) := by
  have hwild (post : List Text) : (pre ++ c :: post).any hasWild = true := by simp [hc]
  induction post using List.reverseRecOn with
  | nil =>
      have hne : c ≠ [] := by
        rintro rfl
        cases hc
      have hstep : Climbs 1 (folderOf (pre ++ [c])) (folderOf pre) := by
        refine .up ((Path.hasWild_folderOf _).trans (hwild [])) ?_
        rw [Path.parent_folderOf_concat pre hne (h c List.mem_cons_self)]
        exact climbs_of_not_wild hpre
      simpa [hne] using hstep
  | append_singleton post n ih =>
      rw [← List.cons_append, List.forall_mem_append, List.forall_mem_singleton] at h
      have ih := ih h.1
      rw [← List.cons_append, ← List.append_assoc, List.filter_append, List.length_append]
      by_cases hne : n = []
      · -- The slash of an empty name is left together with the name in front of it.
        rw [hne, Path.folderOf_concat_empty (hwild post)]
        exact ih
      · have hup : hasWild (folderOf (pre ++ c :: post ++ [n])) = true := by
          rw [Path.hasWild_folderOf, List.any_append, hwild, Bool.true_or]
        have hstep : Climbs _ (folderOf (pre ++ c :: post ++ [n])) (folderOf pre) :=
          .up hup (by rwa [Path.parent_folderOf_concat _ hne h.2])
        simpa [hne] using hstep

theorem exists_climbs (pattern : Text) :
    ∃ pre c post, Path.names pattern = pre ++ c :: post ∧
      (∀ n ∈ pre, hasWild n = false) ∧ (hasWild c = true ∨ post = []) ∧
      Climbs ((c :: post).dropLast.filter fun n => !n.isEmpty).length (Path.parent pattern)
        (folderOf pre) := by
  obtain ⟨heads, last, hnames⟩ :=
    (List.eq_nil_or_concat (Path.names pattern)).resolve_left (Text.splitOn_ne_nil _ _)
  rw [List.concat_eq_append] at hnames
  rw [Path.parent_eq_folderOf hnames]
  cases hfirst : heads.find? hasWild with
  | none =>
      have hheads : ∀ n ∈ heads, hasWild n = false := by simpa using hfirst
      exact ⟨heads, last, [], hnames, hheads, .inr rfl, climbs_of_not_wild hheads⟩
  | some c =>
      obtain ⟨hc, pre, post, rfl, hpre⟩ := List.find?_eq_some_iff_append.1 hfirst
      have hpre : ∀ n ∈ pre, hasWild n = false := by simpa using hpre
      have hpost : ∀ n ∈ c :: post, slash ∉ n := by
        intro n hn
        refine Path.slash_notMem_of_mem_names (p := pattern) ?_
        rw [hnames]
        exact List.mem_append_left _ (List.mem_append_right _ hn)
      refine ⟨pre, c, post ++ [last], by simpa using hnames, hpre, .inl hc, ?_⟩
      rw [← List.cons_append, List.dropLast_concat]
      exact climbs_folderOf hpre hc hpost

theorem root_eq_folderOf (pattern : Text) :
    ∃ pre c post, Path.names pattern = pre ++ c :: post ∧
      (∀ n ∈ pre, hasWild n = false) ∧ (hasWild c = true ∨ post = []) ∧
      root pattern = Path.explicit (folderOf pre) := by
  obtain ⟨pre, c, post, hnames, hpre, hc, hclimbs⟩ := exists_climbs pattern
  exact ⟨pre, c, post, hnames, hpre, hc, by rw [root_eq_explicit, hclimbs.fixedPart_eq]⟩

/-- The root of a pattern is written by the names before the first that is a pattern, or before the
last one, without slashes at the end unless there is nothing else. No more steps lead there than
there are names that are not empty. -/
theorem root_writesFixedNames (pattern : Text) :
    ∃ pre c post, Path.names pattern = pre ++ c :: post ∧
      (∀ n ∈ pre, hasWild n = false) ∧ (hasWild c = true ∨ post = []) ∧
      pattern = Text.ended [slash] pre ++ Text.join [slash] (c :: post) ∧
      (∃ k ≤ ((Path.names pattern).filter fun n => !n.isEmpty).length,
        Climbs k (Path.parent pattern) (Path.trimmed (Text.ended [slash] pre))) ∧
      root pattern = Path.explicit (Path.trimmed (Text.ended [slash] pre)) ∧
      hasWild (root pattern) = false := by
  obtain ⟨pre, c, post, hnames, hpre, hc, hclimbs⟩ := exists_climbs pattern
  have hpattern := Path.eq_ended_append (List.cons_ne_nil c post) hnames
  have hsteps : ((c :: post).dropLast.filter fun n => !n.isEmpty).length ≤
      ((Path.names pattern).filter fun n => !n.isEmpty).length := by
    have hsub : (c :: post).dropLast.Sublist (Path.names pattern) := by
      rw [hnames]
      exact (List.dropLast_sublist _).trans (List.sublist_append_right pre _)
    exact (hsub.filter _).length_le
  have hroot : root pattern = Path.explicit (folderOf pre) := by
    rw [root_eq_explicit, hclimbs.fixedPart_eq]
  exact ⟨pre, c, post, hnames, hpre, hc, hpattern, ⟨_, hsteps, hclimbs⟩, hroot,
    not_wild_root pattern⟩

end Glob

end CrateIndex
