import CrateIndex.Proofs.Registry.Merging

/-!
# Registries merged in another order

Registries merged in another order have the same packages, and the same versions if all versions
are kept. What the packages and versions hold is the same as well if no two of the registries say
different things of one of them. The order of the entries may differ.
-/

namespace CrateIndex

namespace OrderedMap

variable {κ ν : Type} [DecidableEq κ]

/-- The same keys, each with two values of which `R` holds, in any order. -/
def Alike (R : ν → ν → Prop) (m n : OrderedMap κ ν) : Prop :=
  ∀ k, Option.Rel R (m.get? k) (n.get? k)

end OrderedMap

/-- Which item is the last that has something hangs on the order. What it has does not, up to `R`,
if `R` holds of what any two items have. -/
theorem Last.rel_of_perm {α β : Type} {R : β → β → Prop} {f : α → Option β} {x y : Option β}
    {xs ys : List α} (hp : xs.Perm ys)
    (hx : ∀ b, x = some b ↔ ∃ a, Last (fun a => (f a).isSome) a xs ∧ f a = some b)
    (hy : ∀ b, y = some b ↔ ∃ a, Last (fun a => (f a).isSome) a ys ∧ f a = some b)
    (hR : ∀ a ∈ xs, ∀ a' ∈ xs, ∀ b b', f a = some b → f a' = some b' → R b b') :
    Option.Rel R x y := by
  have isSome_iff {z : Option β} {zs : List α}
      (hz : ∀ b, z = some b ↔ ∃ a, Last (fun a => (f a).isSome) a zs ∧ f a = some b) :
      z.isSome ↔ ∃ a ∈ zs, (f a).isSome := by
    rw [Option.isSome_iff_exists, ← Last.exists_iff]
    constructor
    · rintro ⟨b, hb⟩
      obtain ⟨a, ha, -⟩ := (hz b).1 hb
      exact ⟨a, ha⟩
    · rintro ⟨a, ha⟩
      obtain ⟨b, hb⟩ := Option.isSome_iff_exists.1 ha.holds
      exact ⟨b, (hz b).2 ⟨a, ha, hb⟩⟩
  have hsome : x.isSome ↔ y.isSome := by
    simp only [isSome_iff hx, isSome_iff hy, hp.mem_iff]
  match x, y with
  | none, none => exact .none
  | some b, none => simp at hsome
  | none, some b' => simp at hsome
  | some b, some b' =>
      obtain ⟨a, ha, hb⟩ := (hx b).1 rfl
      obtain ⟨a', ha', hb'⟩ := (hy b').1 rfl
      exact .some (hR a ha.mem a' (hp.mem_iff.2 ha'.mem) b b' hb hb')

/-- The same dependencies with the same ranges, in any order. -/
def Dependencies.Same (d e : Dependencies) : Prop := ∀ k, d.get? k = e.get? k

/-- The same versions with the same dependencies, in any order. -/
def Package.Same (pkg pkg' : Package) : Prop := OrderedMap.Alike Dependencies.Same pkg pkg'

namespace Registry

open OrderedMap

variable {m n : Registry} {rs rs' : List Registry}

/-- The same packages with the same versions and dependencies, in any order. -/
def Same (m n : Registry) : Prop := Alike Package.Same m n

theorem same_of_versions (hk : ∀ p, p ∈ m.keys ↔ p ∈ n.keys)
    (hv : ∀ p v, Option.Rel Dependencies.Same (m.version? p v) (n.version? p v)) : m.Same n := by
  intro p
  have hp := hk p
  have hv := hv p
  rw [mem_keys_iff, mem_keys_iff] at hp
  unfold version? at hv
  match hm : m.get? p, hn : n.get? p with
  | none, none => exact .none
  | some pkg, none => simp [hm, hn] at hp
  | none, some pkg' => simp [hm, hn] at hp
  | some pkg, some pkg' =>
      rw [hm, hn] at hv
      exact .some hv

theorem mem_keys_merge_perm (strategy : MergePolicy) (hp : rs.Perm rs') (p : Text) :
    p ∈ (merge strategy rs).1.keys ↔ p ∈ (merge strategy rs').1.keys := by
  simp only [mem_keys_merge, hp.mem_iff]

theorem same_merge_union (hp : rs.Perm rs')
    (h : ∀ q ∈ rs, ∀ r ∈ rs, ∀ p v d e, q.version? p v = some d → r.version? p v = some e →
      Dependencies.Same d e) :
    (merge .union rs).1.Same (merge .union rs').1 := by
  refine same_of_versions (mem_keys_merge_perm .union hp) ?_
  intro p v
  refine Last.rel_of_perm (f := fun r => version? r p v) hp (fun _ => version?_merge_union)
    (fun _ => version?_merge_union) ?_
  intro q hq r hr d e
  exact h q hq r hr p v d e

theorem same_merge_replace (hp : rs.Perm rs')
    (h : ∀ q ∈ rs, ∀ r ∈ rs, ∀ p a b, q.get? p = some a → r.get? p = some b → Package.Same a b) :
    (merge .replace rs).1.Same (merge .replace rs').1 := by
  intro p
  have hlast (zs : List Registry) (pkg : Package) : (merge .replace zs).1.get? p = some pkg ↔
      ∃ r, Last (fun r : Registry => (r.get? p).isSome) r zs ∧ r.get? p = some pkg := by
    simp only [get?_merge_replace, mem_keys_iff]
  refine Last.rel_of_perm hp (hlast rs) (hlast rs') ?_
  intro q hq r hr a b
  exact h q hq r hr p a b

/-- Registries merged in another order have the same packages. If all versions are kept they have
the same versions too, with the same dependencies where any two of them give a version that both
have the same ones. If packages are replaced, their contents are the same where any two give a
package that both have the same contents. -/
theorem merge_perm (hp : rs.Perm rs') :
    (∀ p, p ∈ (merge .union rs).1.keys ↔ p ∈ (merge .union rs').1.keys) ∧
    (∀ p v, (version? (merge .union rs).1 p v).isSome ↔
      (version? (merge .union rs').1 p v).isSome) ∧
    ((∀ q ∈ rs, ∀ r ∈ rs, ∀ p v d e, q.version? p v = some d → r.version? p v = some e →
        Dependencies.Same d e) →
      (merge .union rs).1.Same (merge .union rs').1) ∧
    (∀ p, p ∈ (merge .replace rs).1.keys ↔ p ∈ (merge .replace rs').1.keys) ∧
    ((∀ q ∈ rs, ∀ r ∈ rs, ∀ p a b, q.get? p = some a → r.get? p = some b → Package.Same a b) →
      (merge .replace rs).1.Same (merge .replace rs').1) := by
  refine ⟨mem_keys_merge_perm .union hp, ?_, same_merge_union hp, mem_keys_merge_perm .replace hp,
    same_merge_replace hp⟩
  intro p v
  simp only [isSome_version?_merge_union, hp.mem_iff]

/-- The registry of one version. -/
def ofVersion (p v : Text) (ranges : Dependencies) : Registry :=
  .ofList [(p, .ofList [(v, ranges)])]

theorem get?_ofVersion {p v q : Text} {ranges : Dependencies} {pkg : Package}
    (h : (ofVersion p v ranges).get? q = some pkg) : q = p ∧ pkg = .ofList [(v, ranges)] := by
  simp only [ofVersion, OrderedMap.ofList, insertAll, List.foldl_cons, List.foldl_nil, get?_insert,
    get?_empty, Option.ite_none_right_eq_some, Option.some.injEq] at h
  exact ⟨h.1, h.2.symm⟩

theorem version?_ofVersion {p v q w : Text} {ranges d : Dependencies}
    (h : version? (ofVersion p v ranges) q w = some d) : d = ranges := by
  obtain ⟨pkg, hp, hv⟩ := Option.bind_eq_some_iff.1 h
  obtain ⟨-, rfl⟩ := get?_ofVersion hp
  simp only [OrderedMap.ofList, insertAll, List.foldl_cons, List.foldl_nil, get?_insert,
    get?_empty, Option.ite_none_right_eq_some, Option.some.injEq] at hv
  exact hv.2.symm

theorem Package.same_singleton {v : Text} {d e : Dependencies} (h : Dependencies.Same d e) :
    Package.Same (.ofList [(v, d)]) (.ofList [(v, e)]) := by
  intro w
  simp only [OrderedMap.ofList, insertAll, List.foldl_cons, List.foldl_nil, get?_insert, get?_empty]
  split
  · exact .some h
  · exact .none

/-- The same two dependencies in the two orders in which they can stand. -/
def twoOrders : List Dependencies :=
  [.ofList [("x", "^1"), ("y", "2")], .ofList [("y", "2"), ("x", "^1")]]

theorem same_twoOrders : ∀ d ∈ twoOrders, ∀ e ∈ twoOrders, Dependencies.Same d e := by
  have hxy : Dependencies.Same (.ofList [("x", "^1"), ("y", "2")])
      (.ofList [("y", "2"), ("x", "^1")]) := by
    intro k
    by_cases hx : k = Text.ofString "x"
    · subst hx
      decide
    · simp [OrderedMap.ofList, insertAll, get?_insert, hx]
  simp only [twoOrders, List.forall_mem_cons, List.not_mem_nil, false_imp_iff, implies_true,
    and_true]
  exact ⟨⟨fun _ => rfl, hxy⟩, fun k => (hxy k).symm, fun _ => rfl⟩

/-- A version given twice, with its dependencies in two orders. -/
theorem merge_perm_twoOrders :
    (merge .union (twoOrders.map (ofVersion "a" "1"))).1.Same
      (merge .union (twoOrders.reverse.map (ofVersion "a" "1"))).1 ∧
    (merge .replace (twoOrders.map (ofVersion "a" "1"))).1.Same
      (merge .replace (twoOrders.reverse.map (ofVersion "a" "1"))).1 := by
  obtain ⟨-, -, hunion, -, hreplace⟩ :=
    merge_perm ((List.reverse_perm twoOrders).symm.map (ofVersion "a" "1"))
  refine ⟨hunion ?_, hreplace ?_⟩
  · rw [List.forall_mem_map]
    intro d₁ h₁
    rw [List.forall_mem_map]
    intro d₂ h₂ p v d e hd he
    rw [version?_ofVersion hd, version?_ofVersion he]
    exact same_twoOrders d₁ h₁ d₂ h₂
  · rw [List.forall_mem_map]
    intro d₁ h₁
    rw [List.forall_mem_map]
    intro d₂ h₂ p a b ha hb
    rw [(get?_ofVersion ha).2, (get?_ofVersion hb).2]
    exact Package.same_singleton (same_twoOrders d₁ h₁ d₂ h₂)

end Registry

end CrateIndex
