import CrateIndex.Proofs.Requirement.Validity
import CrateIndex.Proofs.Version.Reading

/-!
# What the range of a wildcard means

The range of a wildcard requirement holds the releases that begin with its numbers, and their
pre-releases but for those of the lowest release.
-/

namespace CrateIndex

namespace Wildcard

theorem majorRange_eq_text (a : ℕ) :
    majorRange (Decimal.text a) (Decimal.text (a + 1)) = (Interval.ofMajor a).text := by
  simp [majorRange, Interval.text, Interval.ofMajor, Version.text, Version.numbersText,
    Version.identifiersText, Identifier.text, Decimal.text_zero, Text.join, Text.ofString]

theorem minorRange_eq_text (a b : ℕ) :
    minorRange (Decimal.text a) (Decimal.text b) (Decimal.text (b + 1)) =
      (Interval.ofMinor a b).text := by
  simp [minorRange, Interval.text, Interval.ofMinor, Version.text, Version.numbersText,
    Version.identifiersText, Identifier.text, Decimal.text_zero, Text.join, Text.ofString]

end Wildcard

namespace Requirement

open Decimal Wildcard

variable {expr out : Text} {numbers : List Text} {m n : ℕ}

theorem exists_names_of_toRange (h : IsWildcard expr) (hr : (toRange expr).result = .ok out) :
    ∃ numbers, Names expr numbers := by
  by_contra hn
  have hc : check expr = .error (.malformed expr) := by rw [check, parts?_eq_none h hn]
  rw [toRange_defect h hc] at hr
  cases hr

theorem length_le_of_toRange (h : IsWildcard expr) (hn : Names expr numbers)
    (hr : (toRange expr).result = .ok out) : ∀ s ∈ numbers, s.length ≤ digitLimit := by
  intro s hs
  by_contra hlong
  obtain ⟨n, hc⟩ := (check_of_names hn).2 ⟨s, hs, Nat.lt_of_not_le hlong⟩
  rw [toRange_defect h hc] at hr
  cases hr

theorem bound_of_map {f : Text → Text} (h : f <$> written n = .ok out) : out = f (text n) := by
  cases hw : written n with
  | error e =>
      rw [hw] at h
      cases h
  | ok s =>
      rw [hw] at h
      cases h
      rw [(written_eq_ok_iff.1 hw).2]

theorem ofText?_of_major (h : IsWildcard expr) (hr : (toRange expr).result = .ok out)
    (hn : Names expr [text m]) : Interval.ofText? out = some (Interval.ofMajor m) := by
  have hlen := length_le_of_toRange h hn hr
  cases hn with
  | major hc he =>
      rw [toRange_major hc he (hlen _ List.mem_cons_self)] at hr
      rw [bound_of_map hr, value_text, majorRange_eq_text, Interval.ofText?_text]

theorem ofText?_of_minor (h : IsWildcard expr) (hr : (toRange expr).result = .ok out)
    (hn : Names expr [text m, text n]) :
    Interval.ofText? out = some (Interval.ofMinor m n) := by
  have hlen := length_le_of_toRange h hn hr
  cases hn with
  | minor hc hd hw =>
      rw [List.forall_mem_cons, List.forall_mem_singleton] at hlen
      rw [toRange_minor hc hd hw hlen.1 hlen.2] at hr
      rw [bound_of_map hr, value_text, minorRange_eq_text, Interval.ofText?_text]

theorem names_cases (h : Names expr numbers) :
    (∃ m, Names expr [text m]) ∨ ∃ m n, Names expr [text m, text n] := by
  cases h with
  | @major a ending twice hc he =>
      refine .inl ⟨value a, ?_⟩
      rw [text_value hc]
      exact .major hc he
  | @minor a b w hc hd hw =>
      refine .inr ⟨value a, value b, ?_⟩
      rw [text_value hc, text_value hd]
      exact .minor hc hd hw

/-- The range of a wildcard requirement is an interval of versions. It holds the releases that
begin with the numbers of the requirement and the pre-releases of these, those of the lower bound
apart. It ends before all pre-releases of the next version. -/
theorem toRange_meaning (h : IsWildcard expr) (hr : (toRange expr).result = .ok out) :
    ((∃ m, Names expr [text m]) ∨ ∃ m n, Names expr [text m, text n]) ∧
    ∃ r, Interval.ofText? out = some r ∧
      (∀ m, Names expr [text m] →
        (∀ x y z, ⟨x, y, z, []⟩ ∈ r ↔ x = m) ∧ ∀ p, ⟨m + 1, 0, 0, p⟩ ∉ r) ∧
      (∀ m n, Names expr [text m, text n] →
        (∀ x y z, ⟨x, y, z, []⟩ ∈ r ↔ x = m ∧ y = n) ∧ ∀ p, ⟨m, n + 1, 0, p⟩ ∉ r) ∧
      ∀ x y z p, p ≠ [] → (⟨x, y, z, p⟩ ∈ r ↔
        ⟨x, y, z, []⟩ ∈ r ∧ (⟨x, y, z, []⟩ : Version) ≠ r.low) := by
  obtain ⟨numbers, hn⟩ := exists_names_of_toRange h hr
  have hcases := names_cases hn
  refine ⟨hcases, ?_⟩
  have hread : ∃ r, Interval.ofText? out = some r ∧ r.low.prerelease = [] ∧
      r.high.prerelease = [.number 0] := by
    rcases hcases with ⟨m, hm⟩ | ⟨m, n, hm⟩
    · exact ⟨_, ofText?_of_major h hr hm, rfl, rfl⟩
    · exact ⟨_, ofText?_of_minor h hr hm, rfl, rfl⟩
  obtain ⟨r, ho, hlow, hhigh⟩ := hread
  refine ⟨r, ho, ?_, ?_, ?_⟩
  · intro m hm
    rw [ofText?_of_major h hr hm] at ho
    cases ho
    exact ⟨fun _ _ _ => Interval.release_mem_ofMajor_iff, fun _ => Interval.notMem_next hhigh⟩
  · intro m n hm
    rw [ofText?_of_minor h hr hm] at ho
    cases ho
    exact ⟨fun _ _ _ => Interval.release_mem_ofMinor_iff, fun _ => Interval.notMem_next hhigh⟩
  · intro x y z p hp
    exact Interval.prerelease_mem_iff hlow hhigh hp

/-- The versions of `1.2.*`. -/
theorem toRange_meaning_minor : (toRange "1.2.*").result = .ok ">=1.2.0 <1.3.0-0" ∧
    ∃ r, Interval.ofText? ">=1.2.0 <1.3.0-0" = some r ∧
      (∀ x y z, ⟨x, y, z, []⟩ ∈ r ↔ x = 1 ∧ y = 2) ∧ ∀ p, ⟨1, 3, 0, p⟩ ∉ r := by
  have h : IsWildcard "1.2.*" := ⟨"1.2.", "*", false, rfl, by decide, .once rfl⟩
  have hone : text 1 = "1" := text_of_lt (by decide)
  have htwo : text 2 = "2" := text_of_lt (by decide)
  have hthree : text 3 = "3" := text_of_lt (by decide)
  have hc : IsCanonical "1" := hone ▸ isCanonical_text 1
  have hd : IsCanonical "2" := htwo ▸ isCanonical_text 2
  have hn : Names "1.2.*" [text 1, text 2] := by
    rw [hone, htwo]
    exact .minor hc hd (w := '*') rfl
  have hr : (toRange "1.2.*").result = .ok ">=1.2.0 <1.3.0-0" := by
    have hrange := toRange_minor hc hd (w := '*') rfl (by decide) (by decide)
    have hnext : written 3 = .ok "3" := written_eq_ok_iff.2 ⟨by rw [hthree]; decide, hthree.symm⟩
    have hvalue : value "2" + 1 = 3 := rfl
    rw [hvalue, hnext] at hrange
    exact hrange
  obtain ⟨-, r, ho, -, hminor, -⟩ := toRange_meaning h hr
  exact ⟨hr, r, ho, hminor 1 2 hn⟩

end Requirement

end CrateIndex
