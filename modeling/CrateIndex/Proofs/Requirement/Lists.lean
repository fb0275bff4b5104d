import CrateIndex.Proofs.Requirement.Clauses
import CrateIndex.Proofs.Text.Splitting

/-!
# Lists of clauses

Only the rules for two clauses take a comma, and what they take has two runs of digits and dots at
most. Of a list of clauses one comma becomes a space, so that from three clauses on there is a comma
left and no rule takes the list.
-/

namespace CrateIndex

namespace Text

variable {x : CodePoint} {s : Text}

theorem versionRuns_ne_nil (h : ∃ x ∈ s, CharClass.version.holds x = true) :
    versionRuns s ≠ [] := by
  induction s with
  | nil =>
      obtain ⟨x, hx, -⟩ := h
      cases hx
  | cons c s ih =>
      rw [versionRuns]
      split
      · split <;> simp
      · next hc =>
          obtain ⟨x, hx, hv⟩ := h
          rcases List.mem_cons.1 hx with rfl | hx
          · exact absurd hv hc
          · exact ih ⟨x, hx, hv⟩

/-- No run goes on beyond a code point that is neither a digit nor a dot. -/
theorem versionRuns_append_cons (hx : CharClass.version.holds x = false) (s t : Text) :
    versionRuns (s ++ x :: t) = versionRuns s ++ versionRuns t := by
  induction s with
  | nil => simp [versionRuns, hx]
  | cons c s ih =>
      cases s with
      | nil =>
          rw [List.nil_append] at ih
          simp only [List.cons_append, List.nil_append, versionRuns, List.head?_cons,
            Option.any_some, hx]
          split <;> rfl
      | cons d s =>
          have hhead : (d :: s ++ x :: t).head? = (d :: s).head? := rfl
          rw [List.cons_append, versionRuns, versionRuns, hhead, ih]
          split
          · cases hd : CharClass.version.holds d with
            | true =>
                -- The run that begins at `c` goes on in `s`.
                have hne := versionRuns_ne_nil ⟨d, List.mem_cons_self, hd⟩ (s := d :: s)
                obtain ⟨run, runs, hr⟩ := List.exists_cons_of_ne_nil hne
                simp [hr, hd]
            | false => simp [hd]
          · rfl

end Text

namespace Requirement

open Pattern Text

variable {s : Text} {r : Rule} {clauses : List Text}

theorem mem_twoClauses_of_comma (h : r.pattern.accepts s = true) (hc : CodePoint.ofChar ',' ∈ s) :
    r ∈ Rule.twoClauses := by
  obtain ⟨runs, ht⟩ := accepts_iff.1 h
  cases r with
  | wildcard | exact | greater => exact absurd hc (ht.notMem (by decide))
  | _ => decide

theorem length_versionRuns_le (hr : r ∈ Rule.twoClauses) (h : r.pattern.accepts s = true) :
    (versionRuns s).length ≤ 2 := by
  obtain ⟨runs, hc⟩ := Option.isSome_iff_exists.1 h
  by_cases hw : r = .floorWildcard
  · subst hw
    obtain ⟨a, b, -, -, hkeeps | hone⟩ := floorWildcard_cases hc
    · simp [hkeeps.runs]
    · simp [hone]
  · obtain ⟨a, b, -, -, -, hkeeps⟩ := keepsVersions_of_captures hr hw hc
    simp [hkeeps.runs]

/-- A clause of a list: it holds a digit or a dot, and no comma. -/
structure IsClause (c : Text) : Prop where
  comma_notMem : CodePoint.ofChar ',' ∉ c
  versioned : ∃ x ∈ c, CharClass.version.holds x = true

instance : DecidablePred IsClause := fun c =>
  decidable_of_iff (CodePoint.ofChar ',' ∉ c ∧ ∃ x ∈ c, CharClass.version.holds x = true)
    ⟨fun h => ⟨h.1, h.2⟩, fun h => ⟨h.1, h.2⟩⟩

theorem length_le_versionRuns_join (h : ∀ c ∈ clauses, IsClause c) :
    clauses.length ≤ (versionRuns (join "," clauses)).length := by
  induction clauses with
  | nil => exact Nat.zero_le _
  | cons c clauses ih =>
      rw [List.forall_mem_cons] at h
      have hc := List.length_pos_of_ne_nil (versionRuns_ne_nil h.1.versioned)
      have hcs := ih h.2
      by_cases hne : clauses = []
      · subst hne
        rwa [join, List.intercalate_singleton]
      · have hcomma : c ++ ((",": Text) ++ join "," clauses) =
            c ++ CodePoint.ofChar ',' :: join "," clauses := rfl
        rw [join_cons _ _ hne, hcomma, versionRuns_append_cons rfl, List.length_append,
          List.length_cons]
        omega

/-- The comma behind the first clause becomes a space, and the others stay. -/
theorem spaced_join {first : Text} (h : CodePoint.ofChar ',' ∉ first) (hne : clauses ≠ []) :
    spaced (join "," (first :: clauses)) = first ++ " " ++ join "," clauses := by
  rw [join_cons _ _ hne, spaced, replaceFirst_append h, List.append_assoc]
  rfl

theorem not_accepts_list {first second third : Text} {rest : List Text}
    (h : ∀ c ∈ first :: second :: third :: rest, IsClause c) (r : Rule) :
    r.pattern.accepts (first ++ " " ++ join "," (second :: third :: rest)) = false := by
  rw [List.forall_mem_cons] at h
  obtain ⟨hfirst, hmore⟩ := h
  rw [← Bool.not_eq_true]
  intro ha
  have hcomma : CodePoint.ofChar ',' ∈ first ++ " " ++ join "," (second :: third :: rest) := by
    rw [join_cons _ _ (List.cons_ne_nil third rest)]
    simp [ofString]
  have htwo := length_versionRuns_le (mem_twoClauses_of_comma ha hcomma) ha
  have hspace : first ++ " " ++ join "," (second :: third :: rest) =
      first ++ CodePoint.ofChar ' ' :: join "," (second :: third :: rest) := by
    rw [List.append_assoc]
    rfl
  have hone := List.length_pos_of_ne_nil (versionRuns_ne_nil hfirst.versioned)
  have hrest := length_le_versionRuns_join hmore
  rw [hspace, versionRuns_append_cons rfl, List.length_append] at htwo
  simp only [List.length_cons] at hrest
  omega

/-- A list of three clauses or more is taken by no rule. It is passed on, and only its first comma
becomes a space. -/
theorem toRange_list {first second third : Text} {rest : List Text}
    (h : ∀ c ∈ first :: second :: third :: rest, IsClause c) :
    (∀ r : Rule, r.pattern.accepts
      (spaced (join "," (first :: second :: third :: rest))) = false) ∧
    rule? (join "," (first :: second :: third :: rest)) = none ∧
    (toRange (join "," (first :: second :: third :: rest))).result =
      .ok (first ++ " " ++ join "," (second :: third :: rest)) := by
  have hspaced := spaced_join (h first List.mem_cons_self).comma_notMem
    (List.cons_ne_nil second (third :: rest))
  have hnone : ∀ r : Rule, r.pattern.accepts
      (spaced (join "," (first :: second :: third :: rest))) = false := by
    rw [hspaced]
    exact not_accepts_list h
  refine ⟨hnone, rule?_eq_none_iff.2 hnone, ?_⟩
  rw [toRange_of_not_accepts hnone, hspaced]

/-- The last two clauses alone are taken by a rule, and so is the list if its first clause has no
version. -/
theorem toRange_list_bounds :
    (toRange ">= 1,> 2,<3").result = .ok ">= 1 > 2,<3" ∧ rule? "> 2,<3" = some .openInterval ∧
    rule? ">,2,<3" = some .openInterval :=
  have h : ∀ c ∈ [(">= 1" : Text), "> 2", "<3"], IsClause c := by decide
  ⟨(toRange_list h).2.2, by decide, by decide⟩

end Requirement

end CrateIndex
