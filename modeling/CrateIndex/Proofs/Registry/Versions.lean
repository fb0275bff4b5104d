import CrateIndex.Proofs.OrderedMap
import CrateIndex.Registry.Basic
import Mathlib.Data.Finset.Basic

/-!
# Versions of a registry

A registry told by its versions: each is named by its package and by itself, and has its
dependencies.
-/

namespace CrateIndex.Registry

open OrderedMap

variable {m n : Registry} {p q v : Text}

/-- The dependencies of one version. -/
def version? (reg : Registry) (p v : Text) : Option Dependencies :=
  (reg.get? p).bind fun pkg => pkg.get? v

theorem version?_eq (reg : Registry) (p v : Text) :
    reg.version? p v = ((reg.get? p).getD ∅).get? v := by
  unfold Registry.version?
  cases reg.get? p with
  | none => rfl
  | some pkg => rfl

theorem mem_keys_of_version? (h : (m.version? p v).isSome) : p ∈ m.keys := by
  rw [mem_keys_iff]
  cases hp : m.get? p with
  | none => simp [version?, hp] at h
  | some pkg => rfl

theorem version?_insert (m : Registry) (p q v : Text) (pkg : Package) :
    version? (m.insert p pkg) q v = if q = p then pkg.get? v else m.version? q v := by
  rw [version?_eq, version?_eq, get?_insert]
  split <;> rfl

theorem version?_unite (m r : Registry) (p v : Text) :
    version? (m.unite r) p v = (r.version? p v).or (m.version? p v) := by
  rw [version?_eq, version?_eq, version?_eq, getD_get?_unite, get?_insertAll_entries]

/-- The versions of all packages, each under its package. -/
def versionNames (reg : Registry) : Finset (Text × Text) :=
  (reg.entries.flatMap fun e => e.2.keys.map fun v => (e.1, v)).toFinset

theorem mem_versionNames : (p, v) ∈ m.versionNames ↔ (m.version? p v).isSome := by
  have hmem : (p, v) ∈ m.versionNames ↔ ∃ pkg, (p, pkg) ∈ m.entries ∧ v ∈ pkg.keys := by
    simp [versionNames]
  rw [hmem, version?]
  simp only [← lookup_eq_some_iff m.nodup, mem_keys_iff]
  change (∃ pkg, m.get? p = some pkg ∧ _) ↔ _
  cases m.get? p <;> simp

/-- The same packages, and of each the same versions with the same dependencies, in any order. -/
structure SameContent (m n : Registry) : Prop where
  packages : ∀ p, p ∈ m.keys ↔ p ∈ n.keys
  versions : ∀ p v, m.version? p v = n.version? p v

end CrateIndex.Registry
