import CrateIndex.Index.Lines
import CrateIndex.Proofs.OrderedMap
import CrateIndex.Registry.Merge

/-!
# Registries united

Under the policy that keeps the versions of all registries, merging unites maps of maps, and a line
of the index grafts one version on a registry. So the lines can be read into a later registry or
into the united one.
-/

namespace CrateIndex.Registry

theorem mergeEntry_union (m : Registry) (e : Text × Package) :
    (mergeEntry .union m e).1 = m.graft e.1 e.2.entries := by
  simp only [mergeEntry, OrderedMap.graft]
  cases m.get? e.1 with
  | none => simp
  | some old => simp [mergePackage]

theorem mergeEntries_union (m r : Registry) : (mergeEntries .union m r.entries).1 = m.unite r := by
  have hfold (es : List (Text × Package)) (m : Registry) :
      (mergeEntries .union m es).1 = es.foldl (fun m e => m.graft e.1 e.2.entries) m := by
    induction es generalizing m with
    | nil => rfl
    | cons e es ih =>
        rw [List.foldl_cons, ← mergeEntry_union, ← ih]
        rfl
  exact hfold r.entries m

theorem setVersion_eq_graft (r : Registry) (record : Record) (ranges : Dependencies) :
    r.setVersion record ranges =
      r.graft (registryName record.name) [(withoutBuildTag record.version, ranges)] := rfl

/-- Setting a version in the later registry or in the united one is the same. -/
theorem unite_setVersion (m r : Registry) (record : Record) (ranges : Dependencies) :
    m.unite (r.setVersion record ranges) = Registry.setVersion (m.unite r) record ranges := by
  rw [setVersion_eq_graft, setVersion_eq_graft, OrderedMap.unite_graft]

end CrateIndex.Registry
