import CrateIndex.Proofs.Requirement.Conversion

/-!
# Ranges that stay

A range stays when it is converted once more just if no rule takes it and it has no comma. All
ranges of rules are so, a version apart that was asked for exactly and is a wildcard. A requirement
that no rule takes is so if it had one comma at most.
-/

namespace CrateIndex.Requirement

variable {expr out s t : Text} {r : Rule} {runs : List Text}

theorem toRange_cases (h : (toRange expr).result = .ok out) :
    (∃ r runs, rule? expr = some r ∧ r.pattern.captures? (spaced expr) = some runs ∧
      r.range (spaced expr) runs = .ok out) ∨ rule? expr = none ∧ out = spaced expr := by
  rcases toRange_eq_ok h with ⟨r, runs, hc, hr⟩ | ⟨hn, ho⟩
  · exact .inl ⟨r, runs, rule?_of_captures hc, hc, hr⟩
  · exact .inr ⟨rule?_eq_none_iff.2 hn, ho⟩

theorem not_accepts_own_range (hr : r.range t runs = .ok s)
    (hc : r.pattern.captures? t = some runs) :
    r.pattern.accepts s = false := by
  rw [← Bool.not_eq_true]
  intro ha
  obtain ⟨rfl, h | h⟩ := Rule.eq_wildcard_of_accepts_range hc hr ha
  · cases h
  · cases h

/-- No rule gives back what it takes, so that what stays was passed on as it is. -/
theorem isFinal_iff : IsFinal s ↔ (toRange s).result = .ok s := by
  refine ⟨IsFinal.toRange_eq, ?_⟩
  intro h
  rcases toRange_eq_ok h with ⟨r, runs, hc, hr⟩ | ⟨hn, hs⟩
  · have hcomma : CodePoint.ofChar ',' ∉ s := Rule.comma_notMem_range hc hr
    have ha : r.pattern.accepts s = true := by
      rw [Pattern.accepts, ← spaced_of_notMem hcomma, hc]
      rfl
    rw [not_accepts_own_range hr hc] at ha
    cases ha
  · have hcount : commas s = 0 := by
      have hless := commas_spaced s
      rw [← hs] at hless
      omega
    exact ⟨List.count_eq_zero.1 hcount, hs.symm ▸ hn⟩

theorem captures_exact (h : Rule.exact.pattern.captures? s = some runs) : ∃ v, runs = [v] := by
  have ht := Pattern.takes_of_captures h
  clear h
  cases ht with
  | one _ h =>
      cases h with
      | many _ h =>
          cases h with
          | capture _ h =>
              cases h
              exact ⟨_, rfl⟩

/-- A version that was asked for exactly stays if it is no wildcard. -/
theorem isFinal_exact_iff {v : Text} (h : Rule.exact.pattern.captures? t = some [v]) :
    IsFinal v ↔ Rule.wildcard.pattern.accepts v = false := by
  constructor
  · intro hv
    exact hv.2 .wildcard
  · intro hw
    refine ⟨Rule.comma_notMem_range h rfl, fun r => ?_⟩
    rw [← Bool.not_eq_true]
    intro ha
    obtain ⟨rfl, -⟩ := Rule.eq_wildcard_of_accepts_range (r := .exact) h rfl ha
    rw [hw] at ha
    cases ha

/-- A requirement that was passed on stays if it had one comma at most. -/
theorem isFinal_passed_iff (h : rule? expr = none) : IsFinal (spaced expr) ↔ commas expr < 2 := by
  have hs := commas_spaced expr
  have hcomma : CodePoint.ofChar ',' ∉ spaced expr ↔ commas (spaced expr) = 0 :=
    List.count_eq_zero.symm
  have hn := rule?_eq_none_iff.1 h
  rw [IsFinal, hcomma, hs]
  exact ⟨fun hf => by omega, fun hlt => ⟨by omega, hn⟩⟩

theorem rule?_eq_none_of_comma (h : CodePoint.ofChar ',' ∈ out)
    (ho : (toRange expr).result = .ok out) : rule? expr = none := by
  rcases toRange_cases ho with ⟨r, runs, -, hc, hr⟩ | ⟨hn, -⟩
  · exact absurd h (Rule.comma_notMem_range hc hr)
  · exact hn

theorem toRange_of_rule?_eq_none (h : rule? s = none) : (toRange s).result = .ok (spaced s) :=
  toRange_of_not_accepts (rule?_eq_none_iff.1 h)

/-- A range stays unless it is a wildcard that was asked for exactly, or was passed on from a
requirement with two commas or more. Of the ranges that no rule takes, those that do not stay were
passed on and still have a comma. -/
theorem toRange_stays_iff (h : (toRange expr).result = .ok out) :
    ((toRange out).result = .ok out ↔
      ¬ (rule? expr = some .exact ∧ ∃ v, Rule.exact.pattern.captures? (spaced expr) = some [v] ∧
        Rule.wildcard.pattern.accepts v = true) ∧
      ¬ (rule? expr = none ∧ 2 ≤ commas expr)) ∧
    (∀ r, rule? expr = some r → r ≠ .exact → (toRange out).result = .ok out) ∧
    (rule? out = none ∧ (toRange out).result ≠ .ok out ↔
      rule? expr = none ∧ CodePoint.ofChar ',' ∈ out ∧ rule? out = none) := by
  refine ⟨?_, ?_, ?_⟩
  · rw [← isFinal_iff]
    rcases toRange_cases h with ⟨r, runs, hrule, hc, hr⟩ | ⟨hn, rfl⟩
    · by_cases he : r = .exact
      · subst he
        obtain ⟨v, rfl⟩ := captures_exact hc
        cases hr
        rw [List.headD_cons, isFinal_exact_iff hc, hrule, hc]
        simp
      · rw [hrule]
        simp [he, isFinal_of_range he hc hr]
    · rw [isFinal_passed_iff hn, hn]
      simp
  · intro r hrule he
    rcases toRange_cases h with ⟨r', runs, hrule', hc, hr⟩ | ⟨hn, -⟩
    · rw [hrule'] at hrule
      cases hrule
      exact (isFinal_of_range he hc hr).toRange_eq
    · rw [hn] at hrule
      cases hrule
  · constructor
    · rintro ⟨hn, hne⟩
      have hcomma : CodePoint.ofChar ',' ∈ out := by
        by_contra hcomma
        rw [toRange_of_rule?_eq_none hn, spaced_of_notMem hcomma] at hne
        exact hne rfl
      exact ⟨rule?_eq_none_of_comma hcomma h, hcomma, hn⟩
    · rintro ⟨-, hcomma, hn⟩
      exact ⟨hn, fun hf => (isFinal_iff.2 hf).1 hcomma⟩

/-- A list of three clauses loses one comma after the other, and a wildcard asked for exactly
becomes its range. -/
theorem toRange_stays_threeClauses :
    (toRange ">= 1, < 2, != 1.5").result = .ok ">= 1  < 2, != 1.5" ∧
    (toRange ">= 1  < 2, != 1.5").result ≠ .ok ">= 1  < 2, != 1.5" ∧
    (toRange "= 1.x").result = .ok "1.x" ∧ (toRange "1.x").result ≠ .ok "1.x" := by
  have hlist : (toRange ">= 1, < 2, != 1.5").result = .ok ">= 1  < 2, != 1.5" := rfl
  have hexact : (toRange "= 1.x").result = .ok "1.x" := rfl
  refine ⟨hlist, ?_, hexact, ?_⟩
  · exact ((toRange_stays_iff hlist).2.2.2 (by decide)).2
  · intro hstays
    exact ((toRange_stays_iff hexact).1.1 hstays).1 ⟨by decide, "1.x", by decide⟩

end CrateIndex.Requirement
