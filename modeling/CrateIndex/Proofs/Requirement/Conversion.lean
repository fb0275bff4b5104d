import CrateIndex.Proofs.Requirement.Ranges

/-!
# What a conversion does

A requirement becomes what the rule that takes it makes of it, or loses its first comma. A text
that no rule takes and that has no comma is a range that stays.
-/

namespace CrateIndex

namespace Requirement

variable {expr s t : Text}

def commas (s : Text) : Nat := s.count (CodePoint.ofChar ',')

theorem commas_spaced (expr : Text) : commas (spaced expr) = commas expr - 1 :=
  Text.count_replaceFirst (by decide) expr

theorem spaced_of_notMem (h : CodePoint.ofChar ',' ∉ s) : spaced s = s :=
  Text.replaceFirst_of_notMem h

theorem rule?_eq_none_iff :
    rule? expr = none ↔ ∀ r : Rule, r.pattern.accepts (spaced expr) = false := by
  rw [rule?, Option.eq_none_iff_forall_ne_some]
  refine forall_congr' fun r => ?_
  rw [ne_eq, firstOf_eq_some_iff, not_and, Bool.not_eq_true]
  exact ⟨fun h => h r.mem_all, fun h _ => h⟩

theorem rule?_of_captures {r : Rule} {runs : List Text}
    (h : r.pattern.captures? (spaced expr) = some runs) : rule? expr = some r :=
  firstOf_eq_some_iff.2 ⟨r.mem_all, by rw [Pattern.accepts, h]; rfl⟩

theorem toRange_of_not_accepts (h : ∀ r : Rule, r.pattern.accepts (spaced expr) = false) :
    (toRange expr).result = .ok (spaced expr) := by
  have hf : firstOf Rule.all (spaced expr) = none := rule?_eq_none_iff.2 h
  rw [result_toRange, convert, applyFirst_eq, hf]
  rfl

theorem toRange_of_captures {r : Rule} {runs : List Text}
    (h : r.pattern.captures? (spaced expr) = some runs) :
    (toRange expr).result = r.range (spaced expr) runs := by
  have hf : firstOf Rule.all (spaced expr) = some r := rule?_of_captures h
  rw [result_toRange, convert, applyFirst_eq, hf]
  simp only [Rule.apply, h]
  cases r.range (spaced expr) runs <;> rfl

/-- A rule took the requirement, or no rule did and its first comma went. -/
theorem toRange_eq_ok (h : (toRange expr).result = .ok s) :
    (∃ r : Rule, ∃ runs, r.pattern.captures? (spaced expr) = some runs ∧
      r.range (spaced expr) runs = .ok s) ∨
    (∀ r : Rule, r.pattern.accepts (spaced expr) = false) ∧ s = spaced expr := by
  by_cases ha : ∃ r : Rule, r.pattern.accepts (spaced expr) = true
  · obtain ⟨r, ha⟩ := ha
    obtain ⟨runs, hc⟩ := Option.isSome_iff_exists.1 ha
    rw [toRange_of_captures hc] at h
    exact .inl ⟨r, runs, hc, h⟩
  · simp only [not_exists, Bool.not_eq_true] at ha
    rw [toRange_of_not_accepts ha] at h
    cases h
    exact .inr ⟨ha, rfl⟩

/-- The requirement stands as it is: no rule takes it, and it has no comma that could go. -/
def IsFinal (s : Text) : Prop :=
  CodePoint.ofChar ',' ∉ s ∧ ∀ r : Rule, r.pattern.accepts s = false

theorem IsFinal.toRange_eq (h : IsFinal s) : (toRange s).result = .ok s := by
  have hs : spaced s = s := spaced_of_notMem h.1
  have hn : (toRange s).result = .ok (spaced s) := toRange_of_not_accepts (hs.symm ▸ h.2)
  rwa [hs] at hn

theorem isFinal_of_range {r : Rule} {runs : List Text} (hr : r ≠ .exact)
    (hc : r.pattern.captures? t = some runs) (h : r.range t runs = .ok s) : IsFinal s :=
  ⟨Rule.comma_notMem_range hc h, Rule.not_accepts_range hr hc h⟩

end Requirement

end CrateIndex
