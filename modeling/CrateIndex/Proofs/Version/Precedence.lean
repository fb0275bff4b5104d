import CrateIndex.Text.Basic
import Mathlib.Data.List.Lex
import Mathlib.Data.Nat.Order.Lemmas
import Mathlib.Data.Prod.Lex
import Mathlib.Data.Sum.Order
import Mathlib.Order.BoundedOrder.Basic

/-!
# Versions and their precedence

Versions are ordered by their three numbers first. A release comes after all of its pre-releases.
Pre-releases are ordered by their identifiers, the first two that differ, or by the number of them
if none do. Numbers come before names.
-/

namespace CrateIndex

/-- ASCII letters, digits and hyphens that are not all digits. -/
def IsName (s : Text) : Prop :=
  (∀ c ∈ s, c.isDigit = true ∨ (65 ≤ c.val ∧ c.val ≤ 90) ∨ (97 ≤ c.val ∧ c.val ≤ 122) ∨
    c = CodePoint.ofChar '-') ∧ ∃ c ∈ s, c.isDigit = false

/-- One of the identifiers of a pre-release. -/
inductive Identifier where
  | number (n : ℕ)
  | name (s : Text) (h : IsName s)
deriving DecidableEq

structure Version where
  major : ℕ
  minor : ℕ
  patch : ℕ
  /-- A release has none. -/
  prerelease : List Identifier
deriving DecidableEq

namespace Identifier

variable {m n : ℕ} {s t : Text} {i : Identifier}

/-- Numbers by value come first, and names by their code points after them. -/
def key : Identifier → ℕ ⊕ₗ List ℕ
  | number n => Sum.inlₗ n
  | name s _ => Sum.inrₗ (s.map CodePoint.val)

theorem key_injective : Function.Injective key := by
  intro i j h
  cases i with
  | number m =>
      cases j with
      | number n => rw [Sum.inl_injective h]
      | name t ht => cases h
  | name s hs =>
      cases j with
      | number n => cases h
      | name t ht =>
          have hval : Function.Injective CodePoint.val := fun _ _ => CodePoint.ext_val
          cases hval.list_map (Sum.inr_injective h)
          rfl

instance : LinearOrder Identifier := LinearOrder.lift' key key_injective

theorem number_lt_number_iff : number m < number n ↔ m < n := Sum.Lex.inl_lt_inl_iff

theorem number_lt_name (n : ℕ) (h : IsName s) : number n < name s h := Sum.Lex.inl_lt_inr _ _

theorem name_lt_name_iff {hs : IsName s} {ht : IsName t} :
    name s hs < name t ht ↔ s.map CodePoint.val < t.map CodePoint.val :=
  Sum.Lex.inr_lt_inr_iff

theorem zero_le (i : Identifier) : number 0 ≤ i := by
  cases i with
  | number n =>
      rw [← not_lt, number_lt_number_iff]
      exact Nat.not_lt_zero n
  | name s h => exact le_of_lt (number_lt_name 0 h)

/-- The one number 0 comes before all other identifiers of pre-releases. -/
theorem not_lt_zero {p : List Identifier} (h : p ≠ []) : ¬ p < [number 0] := by
  cases p with
  | nil => exact absurd rfl h
  | cons i p =>
      rw [List.cons_lt_cons_iff]
      rintro (hlt | ⟨-, hlt⟩)
      · exact absurd (zero_le i) (not_le_of_gt hlt)
      · exact List.not_lt_nil p hlt

end Identifier

namespace Version

variable {v w : Version}

def core (v : Version) : ℕ ×ₗ ℕ ×ₗ ℕ := toLex (v.major, toLex (v.minor, v.patch))

def key (v : Version) : (ℕ ×ₗ ℕ ×ₗ ℕ) ×ₗ Bool ×ₗ List Identifier :=
  toLex (v.core, toLex (v.prerelease.isEmpty, v.prerelease))

theorem eq_of_core (hcore : v.core = w.core) (hpre : v.prerelease = w.prerelease) : v = w := by
  cases v
  cases w
  cases hcore
  cases hpre
  rfl

theorem key_injective : Function.Injective key := by
  intro v w h
  refine eq_of_core ?_ ?_
  · exact congrArg (fun k => (ofLex k).1) h
  · exact congrArg (fun k => (ofLex (ofLex k).2).2) h

instance : LinearOrder Version := LinearOrder.lift' key key_injective

theorem core_lt_iff : v.core < w.core ↔ v.major < w.major ∨ v.major = w.major ∧
    (v.minor < w.minor ∨ v.minor = w.minor ∧ v.patch < w.patch) := by
  rw [core, core, Prod.Lex.toLex_lt_toLex, Prod.Lex.toLex_lt_toLex]

theorem core_eq_iff : v.core = w.core ↔
    v.major = w.major ∧ v.minor = w.minor ∧ v.patch = w.patch := by
  rw [core, core, toLex_inj, Prod.mk.injEq, toLex_inj, Prod.mk.injEq]

/-- Of two versions with the same numbers the first is a pre-release, and the second is the release
or a pre-release with later identifiers. -/
theorem lt_iff : v < w ↔ v.core < w.core ∨ v.core = w.core ∧ v.prerelease ≠ [] ∧
    (w.prerelease = [] ∨ v.prerelease < w.prerelease) := by
  have hkey : v < w ↔ v.key < w.key := Iff.rfl
  rw [hkey, key, key, Prod.Lex.toLex_lt_toLex, Prod.Lex.toLex_lt_toLex]
  refine or_congr Iff.rfl (and_congr Iff.rfl ?_)
  cases v.prerelease with
  | nil => cases w.prerelease <;> simp
  | cons i p => cases w.prerelease <;> simp

theorem release_le_iff (h : v.prerelease = []) :
    v ≤ w ↔ v.core < w.core ∨ v.core = w.core ∧ w.prerelease = [] := by
  rw [← not_lt, lt_iff, h]
  rcases lt_trichotomy v.core w.core with hlt | heq | hgt
  · simp [hlt, hlt.not_gt, hlt.ne']
  · simp [heq]
  · simp [hgt, hgt.not_gt, hgt.ne']

/-- Before the first of its pre-releases are the versions before all of them. -/
theorem lt_first_iff (h : w.prerelease = [.number 0]) : v < w ↔ v.core < w.core := by
  rw [lt_iff, h]
  constructor
  · rintro (hlt | ⟨-, hne, hnil | hlt⟩)
    · exact hlt
    · cases hnil
    · exact absurd hlt (Identifier.not_lt_zero hne)
  · exact .inl

end Version

/-- The versions from `low` on and before `high`. -/
structure Interval where
  low : Version
  high : Version
deriving DecidableEq

namespace Interval

instance : Membership Version Interval := ⟨fun r v => r.low ≤ v ∧ v < r.high⟩

variable {v : Version} {r : Interval} {a b x y z : ℕ} {p : List Identifier}

theorem mem_iff (hlow : r.low.prerelease = []) (hhigh : r.high.prerelease = [.number 0]) :
    v ∈ r ↔ (r.low.core < v.core ∨ r.low.core = v.core ∧ v.prerelease = []) ∧
      v.core < r.high.core :=
  and_congr (Version.release_le_iff hlow) (Version.lt_first_iff hhigh)

/-- Between a release and the first pre-release of another, the pre-releases are those of the
releases in between, those of the lower bound apart. -/
theorem prerelease_mem_iff (hlow : r.low.prerelease = []) (hhigh : r.high.prerelease = [.number 0])
    (hp : p ≠ []) :
    ⟨x, y, z, p⟩ ∈ r ↔ ⟨x, y, z, []⟩ ∈ r ∧ (⟨x, y, z, []⟩ : Version) ≠ r.low := by
  have hcore : (⟨x, y, z, []⟩ : Version).core = (⟨x, y, z, p⟩ : Version).core := rfl
  rw [mem_iff hlow hhigh, mem_iff hlow hhigh, hcore]
  constructor
  · rintro ⟨hlt | ⟨-, hnil⟩, hhigh⟩
    · refine ⟨⟨.inl hlt, hhigh⟩, ?_⟩
      intro heq
      rw [← heq] at hlt
      exact lt_irrefl _ hlt
    · exact absurd hnil hp
  · rintro ⟨⟨hlt | ⟨heq, -⟩, hhigh⟩, hne⟩
    · exact ⟨.inl hlt, hhigh⟩
    · have hlower : (⟨x, y, z, []⟩ : Version) = r.low := Version.eq_of_core heq.symm hlow.symm
      exact absurd hlower hne

/-- No pre-release of a version is before the first of them. -/
theorem notMem_next (hhigh : r.high.prerelease = [.number 0]) :
    ⟨r.high.major, r.high.minor, r.high.patch, p⟩ ∉ r := by
  rintro ⟨-, hlt⟩
  have hcore := (Version.lt_first_iff hhigh).1 hlt
  exact lt_irrefl r.high.core hcore

/-- The versions that begin with `a`. -/
def ofMajor (a : ℕ) : Interval := ⟨⟨a, 0, 0, []⟩, ⟨a + 1, 0, 0, [.number 0]⟩⟩

/-- The versions that begin with `a` and `b`. -/
def ofMinor (a b : ℕ) : Interval := ⟨⟨a, b, 0, []⟩, ⟨a, b + 1, 0, [.number 0]⟩⟩

theorem release_mem_ofMajor_iff : ⟨x, y, z, []⟩ ∈ ofMajor a ↔ x = a := by
  rw [mem_iff rfl rfl, Version.core_lt_iff, Version.core_lt_iff, Version.core_eq_iff]
  simp only [ofMajor, and_true]
  omega

theorem release_mem_ofMinor_iff : ⟨x, y, z, []⟩ ∈ ofMinor a b ↔ x = a ∧ y = b := by
  rw [mem_iff rfl rfl, Version.core_lt_iff, Version.core_lt_iff, Version.core_eq_iff]
  simp only [ofMinor, and_true]
  omega

end Interval

end CrateIndex
