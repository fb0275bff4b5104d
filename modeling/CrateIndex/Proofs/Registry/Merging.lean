import CrateIndex.Proofs.OrderedMap.Entries
import CrateIndex.Proofs.Registry.Union
import CrateIndex.Proofs.Registry.Versions

/-!
# Registries merged

Merging is a fold of an associative operation on registries that has the empty one as its unit and
keeps a registry merged with itself. What it holds in the end is said of the registries that were
merged: of a package, or of a version of it, the last one that has it counts.
-/

namespace CrateIndex.Registry

open OrderedMap

variable {strategy : MergePolicy} {m q r : Registry} {rs : List Registry} {p v : Text}

/-- The registry with another one merged in. -/
def join (strategy : MergePolicy) (m r : Registry) : Registry :=
  match strategy with
  | .replace => m.insertAll r.entries
  | .union => m.unite r

theorem mergeEntry_replace (m : Registry) (e : Text × Package) :
    (mergeEntry .replace m e).1 = m.insert e.1 e.2 := by
  unfold mergeEntry
  split <;> rfl

theorem mergeEntries_replace (m : Registry) (es : List (Text × Package)) :
    (mergeEntries .replace m es).1 = m.insertAll es := by
  induction es generalizing m with
  | nil => rfl
  | cons e es ih =>
      calc (mergeEntries .replace m (e :: es)).1
        _ = (mergeEntry .replace m e).1.insertAll es := ih _
        _ = (m.insert e.1 e.2).insertAll es := by rw [mergeEntry_replace]

theorem mergeEntries_eq_join (strategy : MergePolicy) (m r : Registry) :
    (mergeEntries strategy m r.entries).1 = join strategy m r := by
  cases strategy with
  | replace => exact mergeEntries_replace m r.entries
  | union => exact mergeEntries_union m r

theorem mergeInto_eq_foldl (strategy : MergePolicy) (m : Registry) (rs : List Registry) :
    (mergeInto strategy m rs).1 = rs.foldl (join strategy) m := by
  induction rs generalizing m with
  | nil => rfl
  | cons r rs ih =>
      rw [List.foldl_cons, ← mergeEntries_eq_join, ← ih]
      rfl

theorem mergeInto_union (m : Registry) (rs : List Registry) :
    (mergeInto .union m rs).1 = rs.foldl OrderedMap.unite m := mergeInto_eq_foldl .union m rs

theorem merge_eq_foldl (strategy : MergePolicy) (rs : List Registry) :
    (merge strategy rs).1 = rs.foldl (join strategy) ∅ := mergeInto_eq_foldl strategy ∅ rs

theorem merge_concat (strategy : MergePolicy) (rs : List Registry) (r : Registry) :
    (merge strategy (rs ++ [r])).1 = join strategy (merge strategy rs).1 r := by
  rw [merge_eq_foldl, merge_eq_foldl, List.foldl_append]
  rfl

/-! ## Batches -/

theorem join_assoc (strategy : MergePolicy) (m q r : Registry) :
    join strategy (join strategy m q) r = join strategy m (join strategy q r) := by
  cases strategy with
  | replace => exact (insertAll_insertAll m q r.entries).symm
  | union => exact unite_assoc m q r

@[simp] theorem empty_join (strategy : MergePolicy) (r : Registry) : join strategy ∅ r = r := by
  cases strategy with
  | replace => exact insertAll_empty r
  | union => exact empty_unite r

@[simp] theorem join_empty (strategy : MergePolicy) (m : Registry) : join strategy m ∅ = m := by
  cases strategy with
  | replace => rfl
  | union => exact unite_empty m

@[simp] theorem join_self (strategy : MergePolicy) (r : Registry) : join strategy r r = r := by
  cases strategy with
  | replace => exact insertAll_self r
  | union => exact unite_self r

theorem merge_pair (strategy : MergePolicy) (m r : Registry) :
    (merge strategy [m, r]).1 = join strategy m r := by
  rw [merge_eq_foldl, List.foldl_cons, List.foldl_cons, empty_join]
  rfl

theorem foldl_join (strategy : MergePolicy) (m : Registry) (rs : List Registry) :
    rs.foldl (join strategy) m = join strategy m (rs.foldl (join strategy) ∅) := by
  have hassoc : Std.Associative (join strategy) := ⟨join_assoc strategy⟩
  calc rs.foldl (join strategy) m
    _ = rs.foldl (join strategy) (join strategy m ∅) := by rw [join_empty]
    _ = join strategy m (rs.foldl (join strategy) ∅) := List.foldl_assoc

theorem mergeInto_empty (strategy : MergePolicy) (m : Registry) (xs ys : List Registry) :
    mergeInto strategy m (xs ++ ∅ :: ys) = mergeInto strategy m (xs ++ ys) := by
  induction xs generalizing m with
  | nil => rfl
  | cons x xs ih => simp only [List.cons_append, mergeInto, ih]

/-- Registries can be merged in batches and the results merged, a registry without packages changes
nothing, what is warned of included, and a registry merged with itself is itself. -/
theorem merge_batches (strategy : MergePolicy) :
    (∀ xs ys : List Registry, (merge strategy (xs ++ ys)).1 =
      (merge strategy [(merge strategy xs).1, (merge strategy ys).1]).1) ∧
    (∀ xs ys : List Registry, merge strategy (xs ++ ∅ :: ys) = merge strategy (xs ++ ys)) ∧
    ∀ r : Registry, (merge strategy [r, r]).1 = r := by
  refine ⟨?_, mergeInto_empty strategy ∅, ?_⟩
  · intro xs ys
    rw [merge_pair, merge_eq_foldl, List.foldl_append, foldl_join, merge_eq_foldl, merge_eq_foldl]
  · intro r
    rw [merge_pair, join_self]

/-! ## What a merged registry holds -/

theorem keys_join (strategy : MergePolicy) (m r : Registry) :
    (join strategy m r).keys = distinct (m.keys ++ r.keys) := by
  cases strategy with
  | replace => exact keys_insertAll_entries m r
  | union => exact keys_unite m r

theorem keys_merge (strategy : MergePolicy) (rs : List Registry) :
    (merge strategy rs).1.keys = distinct (rs.flatMap keys) := by
  refine fold_eq_distinct (g := fun rs => (merge strategy rs).1.keys) rfl ?_ rs
  intro rs r
  rw [merge_concat, keys_join]

theorem mem_keys_merge : p ∈ (merge strategy rs).1.keys ↔ ∃ r ∈ rs, p ∈ r.keys := by
  rw [keys_merge, mem_distinct, List.mem_flatMap]

theorem get?_merge_replace {pkg : Package} : (merge .replace rs).1.get? p = some pkg ↔
    ∃ r, Last (fun r => p ∈ r.keys) r rs ∧ r.get? p = some pkg := by
  simp only [mem_keys_iff]
  refine Last.fold_eq_some_iff (g := fun rs => (merge .replace rs).1.get? p) rfl ?_
  intro rs r
  rw [merge_concat]
  exact get?_insertAll_entries _ r p

theorem version?_merge_union_concat (rs : List Registry) (r : Registry) (p v : Text) :
    version? (merge .union (rs ++ [r])).1 p v =
      (r.version? p v).or (version? (merge .union rs).1 p v) := by
  rw [merge_concat]
  exact version?_unite _ r p v

theorem version?_merge_union {ranges : Dependencies} :
    version? (merge .union rs).1 p v = some ranges ↔
      ∃ r, Last (fun r => (version? r p v).isSome) r rs ∧ r.version? p v = some ranges :=
  Last.fold_eq_some_iff (g := fun rs => version? (merge .union rs).1 p v) rfl
    fun rs r => version?_merge_union_concat rs r p v

theorem isSome_version?_merge_union :
    (version? (merge .union rs).1 p v).isSome ↔ ∃ r ∈ rs, (version? r p v).isSome :=
  Last.isSome_fold_iff (g := fun rs => version? (merge .union rs).1 p v) rfl
    fun rs r => version?_merge_union_concat rs r p v

theorem keys_package_merge_union (p : Text) (rs : List Registry) :
    (((merge .union rs).1.get? p).getD ∅).keys =
      distinct (rs.flatMap fun r => ((r.get? p).getD ∅).keys) := by
  refine fold_eq_distinct (g := fun rs => (((merge .union rs).1.get? p).getD ∅).keys) rfl ?_ rs
  intro rs r
  rw [merge_concat, join, getD_get?_unite, keys_insertAll_entries]

/-- The packages are those of the registries, in the order of their first appearance. -/
structure HasPackages (m : Registry) (rs : List Registry) : Prop where
  has : ∀ p, p ∈ m.keys ↔ ∃ r ∈ rs, p ∈ r.keys
  packages : ByAppearance m.keys (rs.flatMap keys)

/-- Each package is what the last registry that has it says. -/
structure LastPackages (m : Registry) (rs : List Registry) : Prop extends HasPackages m rs where
  package : ∀ p pkg, m.get? p = some pkg ↔
    ∃ r, Last (fun r => p ∈ r.keys) r rs ∧ r.get? p = some pkg

/-- Each version is what the last registry that has it says. -/
structure LastVersions (m : Registry) (rs : List Registry) : Prop extends HasPackages m rs where
  hasVersion : ∀ p v, (m.version? p v).isSome ↔ ∃ r ∈ rs, (version? r p v).isSome
  versions : ∀ p, ByAppearance ((m.get? p).getD ∅).keys
    (rs.flatMap fun r => ((r.get? p).getD ∅).keys)
  version : ∀ p v ranges, m.version? p v = some ranges ↔
    ∃ r, Last (fun r => (version? r p v).isSome) r rs ∧ r.version? p v = some ranges

theorem hasPackages_merge (strategy : MergePolicy) (rs : List Registry) :
    (merge strategy rs).1.HasPackages rs where
  has _ := mem_keys_merge
  packages := by
    rw [keys_merge]
    exact byAppearance_distinct _

/-- Of each package, or of each version, a merged registry holds what the last registry that has it
says. Packages and versions stand once each, in the order of their first appearance, and a package
without versions is a package. -/
theorem merge_last (rs : List Registry) :
    (merge .replace rs).1.LastPackages rs ∧ (merge .union rs).1.LastVersions rs := by
  refine ⟨⟨hasPackages_merge .replace rs, ?_⟩, ⟨hasPackages_merge .union rs, ?_, ?_, ?_⟩⟩
  · intro p pkg
    exact get?_merge_replace
  · intro p v
    exact isSome_version?_merge_union
  · intro p
    rw [keys_package_merge_union]
    exact byAppearance_distinct _
  · intro p v ranges
    exact version?_merge_union

end CrateIndex.Registry
