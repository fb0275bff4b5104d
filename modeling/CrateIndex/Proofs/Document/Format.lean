import CrateIndex.Document.Format
import CrateIndex.Proofs.Result

/-!
# Documents are not empty
-/

namespace CrateIndex

variable {s : Text} {r : Registry} {bytes : List UInt8}

theorem CodePoint.utf8_ne_nil (c : CodePoint) : c.utf8 ≠ [] := by
  simp only [utf8]
  split
  · simp
  · split
    · simp
    · split <;> simp

theorem Utf8.eq_of_encode (h : encode s = .ok bytes) : bytes = s.flatMap CodePoint.utf8 := by
  unfold encode at h
  split at h
  · cases h
  · cases h
    rfl

theorem JsonText.object_ne_nil (depth : Nat) (members : List (Text × Text)) :
    object depth members ≠ [] := by
  unfold object
  split
  · decide
  · -- The brace that opens the object.
    simp [Text.ofString]

theorem MessagePack.mapHeader_ne_nil (n : Nat) : mapHeader n ≠ [] := by
  unfold mapHeader
  split
  · simp
  · split <;> simp

theorem MessagePack.map_ne_nil {ν : Type} {value : ν → Except Utf8.SurrogateRun (List UInt8)}
    {m : OrderedMap Text ν} (h : map value m = .ok bytes) : bytes ≠ [] := by
  obtain ⟨entries, -, h⟩ := Result.bind_eq_ok_iff.1 h
  cases h
  simp [mapHeader_ne_nil]

theorem Format.encode_ne_nil {f : Format} (h : f.encode r = .ok bytes) : bytes ≠ [] := by
  cases f with
  | messagePack => exact MessagePack.map_ne_nil h
  | json =>
      have he : bytes = (JsonText.render r).flatMap CodePoint.utf8 := Utf8.eq_of_encode h
      obtain ⟨c, s, hs⟩ := List.exists_cons_of_ne_nil (JsonText.object_ne_nil 0 _)
      rw [he, JsonText.render, hs, List.flatMap_cons]
      simp [CodePoint.utf8_ne_nil]

end CrateIndex
