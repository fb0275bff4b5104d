import CrateIndex.Index.Name
import CrateIndex.Proofs.Text.Replacing

/-!
# Crates of one name

Which names of crates come to the same name in the registry. Those are the names that differ in
where their first hyphen stands among the underscores in front of it, or in having none.
-/

namespace CrateIndex

open Text

variable {m n s : Text} {i : Nat}

theorem registryName_eq_iff : registryName n = "test/" ++ s ↔ replaceFirst '-' '_' n = s :=
  List.append_right_inj _

theorem registryName_eq_registryName_iff :
    registryName m = registryName n ↔ replaceFirst '-' '_' m = replaceFirst '-' '_' n :=
  List.append_right_inj _

/-- Two names with their first hyphens at one place are told apart in the registry. -/
theorem eq_of_isFirst (h : registryName m = registryName n) (hm : IsFirst '-' m i)
    (hn : IsFirst '-' n i) : m = n := by
  rw [registryName_eq_registryName_iff] at h
  calc m = (replaceFirst '-' '_' m).set i '-' := hm.set_replaceFirst.symm
    _ = (replaceFirst '-' '_' n).set i '-' := by rw [h]
    _ = n := hn.set_replaceFirst

theorem getElem?_of_isFirst (hne : m ≠ n) (h : registryName m = registryName n)
    (hm : IsFirst '-' m i) : n[i]? = some (CodePoint.ofChar '_') := by
  have hn : ¬ IsFirst '-' n i := fun hn => hne (eq_of_isFirst h hm hn)
  rw [← getElem?_replaceFirst_of_not_isFirst (b := '_') hn,
    ← registryName_eq_registryName_iff.1 h, hm.getElem?_replaceFirst]

/-- Names of one registry name differ where the first hyphen of either stands, and nowhere else. -/
theorem getElem?_ne_iff (hne : m ≠ n) (h : registryName m = registryName n) :
    m[i]? ≠ n[i]? ↔ IsFirst '-' m i ∨ IsFirst '-' n i := by
  constructor
  · intro hi
    by_contra hnone
    rw [not_or] at hnone
    apply hi
    rw [← getElem?_replaceFirst_of_not_isFirst (b := '_') hnone.1,
      registryName_eq_registryName_iff.1 h, getElem?_replaceFirst_of_not_isFirst hnone.2]
  · rintro (hm | hn)
    · rw [hm.1, getElem?_of_isFirst hne h hm]
      decide
    · rw [hn.1, getElem?_of_isFirst hne.symm h.symm hn]
      decide

/-- The names that come to `s` are `s` itself, if it has no hyphen, and `s` with a hyphen for any
one of the underscores in front of its first hyphen, and they are as many as that makes. Two of them
differ where the first hyphen of either stands: there the other has an underscore. -/
theorem registryName_fibres :
    (∀ s n : Text, registryName n = "test/" ++ s ↔
      CodePoint.ofChar '-' ∉ s ∧ n = s ∨
        ∃ i, ComesBefore '_' '-' s i ∧ n = s.set i (CodePoint.ofChar '-')) ∧
    (∀ s : Text, ∃ names : List Text, names.Nodup ∧
      (∀ n, n ∈ names ↔ registryName n = "test/" ++ s) ∧
      names.length = (s.takeWhile (· ≠ CodePoint.ofChar '-')).count (CodePoint.ofChar '_') +
        if CodePoint.ofChar '-' ∈ s then 0 else 1) ∧
    ∀ m n : Text, m ≠ n → registryName m = registryName n → ∀ i : Nat,
      (m[i]? ≠ n[i]? ↔ IsFirst '-' m i ∨ IsFirst '-' n i) ∧
      (IsFirst '-' m i → n[i]? = some (CodePoint.ofChar '_')) ∧
      (IsFirst '-' n i → m[i]? = some (CodePoint.ofChar '_')) := by
  have hmarks : CodePoint.ofChar '-' ≠ CodePoint.ofChar '_' := by decide
  refine ⟨?_, ?_, ?_⟩
  · intro s n
    rw [registryName_eq_iff, replaceFirst_eq_iff]
  · intro s
    refine ⟨sources '-' '_' s, nodup_sources hmarks s, fun n => ?_, length_sources _ _ s⟩
    rw [mem_sources_iff hmarks, registryName_eq_iff]
  · intro m n hne h i
    exact ⟨getElem?_ne_iff hne h, getElem?_of_isFirst hne h,
      getElem?_of_isFirst hne.symm h.symm⟩

/-- Two names with hyphens at different places. -/
theorem registryName_fibres_twoHyphens :
    (("x-y_z" : Text) ≠ "x_y-z" ∧ registryName "x-y_z" = registryName "x_y-z") ∧
    (∀ i : Nat, ("x-y_z" : Text)[i]? ≠ ("x_y-z" : Text)[i]? ↔
      IsFirst '-' "x-y_z" i ∨ IsFirst '-' "x_y-z" i) ∧
    (IsFirst '-' "x-y_z" 1 ∧ ("x_y-z" : Text)[1]? = some (CodePoint.ofChar '_')) ∧
    IsFirst '-' "x_y-z" 3 ∧ ("x-y_z" : Text)[3]? = some (CodePoint.ofChar '_') := by
  have hne : ("x-y_z" : Text) ≠ "x_y-z" := by decide +kernel
  have h : registryName "x-y_z" = registryName "x_y-z" := by decide +kernel
  have hone : IsFirst '-' "x-y_z" 1 := ⟨by decide +kernel, by decide +kernel⟩
  have hthree : IsFirst '-' "x_y-z" 3 := ⟨by decide +kernel, by decide +kernel⟩
  have hlaw := registryName_fibres.2.2 _ _ hne h
  exact ⟨⟨hne, h⟩, fun i => (hlaw i).1, ⟨hone, (hlaw 1).2.1 hone⟩, hthree, (hlaw 3).2.2 hthree⟩

end CrateIndex
