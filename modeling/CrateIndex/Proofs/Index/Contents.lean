import CrateIndex.Proofs.Index.Faults
import CrateIndex.Proofs.OrderedMap.Entries
import CrateIndex.Proofs.Registry.Union
import CrateIndex.Proofs.Registry.Versions

/-!
# What lines come to

The registry of lines holds the versions that their records are of. The last record of a version
gives all of its dependencies, and of each of them the last requirement counts. All names stand in
the order in which they first appear.
-/

namespace CrateIndex

open OrderedMap

variable {p v k : Text}

/-- The dependency is needed, and `k` is its name in the registry. -/
def Dependency.Gives (k : Text) (d : Dependency) : Prop :=
  d.kind = .normal ∧ d.optional = false ∧ registryName d.name = k

/-- The record is of the version `v` of the package `p`. -/
def Record.IsOf (p v : Text) (r : Record) : Prop :=
  registryName r.name = p ∧ withoutBuildTag r.version = v

/-- The names are those of the needed dependencies, and each has the range of the last of them. -/
structure Dependencies.LastWins (m : Dependencies) (r : Record) : Prop where
  mem_keys : ∀ k, k ∈ m.keys ↔ ∃ d ∈ r.dependencies, d.Gives k
  range : ∀ k range, m.get? k = some range → ∃ d, Last (Dependency.Gives k) d r.dependencies ∧
    (Requirement.toRange d.requirement).result = .ok range
  order : ByAppearance m.keys (r.needed.map fun d => registryName d.name)

/-- The versions are those of the records, and each has the dependencies of the last of them. -/
structure Registry.LastWins (reg : Registry) (records : List Record) : Prop where
  has : ∀ p v, (reg.version? p v).isSome ↔ ∃ r ∈ records, r.IsOf p v
  dependencies : ∀ p v ranges, reg.version? p v = some ranges →
    ∃ r, Last (Record.IsOf p v) r records ∧ ranges.LastWins r
  packages : ByAppearance reg.keys (records.map fun r => registryName r.name)
  versions : ∀ p pkg, reg.get? p = some pkg → ByAppearance pkg.keys
    ((records.filter fun r => registryName r.name = p).map fun r => withoutBuildTag r.version)

/-! ## Dependencies of one record -/

namespace Record

theorem gives_iff {d : Dependency} :
    d.isNeeded = true ∧ registryName d.name = k ↔ d.Gives k := by
  simp [Dependency.isNeeded, Dependency.Gives, and_assoc]

theorem ranges_of_rangesFrom {ds : List Dependency} {m m' : Dependencies}
    (h : (rangesFrom m ds).result = .ok m') :
    ∃ es : List (Dependency × Text), es.map Prod.fst = ds ∧
      (∀ e ∈ es, (Requirement.toRange e.1.requirement).result = .ok e.2) ∧
      m' = m.insertAll (es.map fun e => (registryName e.1.name, e.2)) := by
  induction ds generalizing m with
  | nil =>
      cases h
      exact ⟨[], rfl, by simp, rfl⟩
  | cons d ds ih =>
      rw [rangesFrom, Logged.result_bind] at h
      obtain ⟨range, hr, h⟩ := Result.bind_eq_ok_iff.1 h
      obtain ⟨es, rfl, he, rfl⟩ := ih h
      refine ⟨(d, range) :: es, rfl, ?_, rfl⟩
      intro e hm
      rcases List.mem_cons.1 hm with rfl | hm
      · exact hr
      · exact he e hm

theorem lastWins_of_ranges {r : Record} {m : Dependencies} (h : r.ranges.result = .ok m) :
    m.LastWins r := by
  obtain ⟨es, hes, he, rfl⟩ := ranges_of_rangesFrom h
  have hk : (ofList (es.map fun e => (registryName e.1.name, e.2))).keys =
      distinct (r.needed.map fun d => registryName d.name) := by
    rw [keys_ofList, ← hes, List.map_map, List.map_map]
    rfl
  refine ⟨?_, ?_, ?_⟩
  · intro k
    change k ∈ (ofList _).keys ↔ _
    rw [hk, mem_distinct]
    simp [needed, ← gives_iff, and_assoc]
  · intro k range hg
    obtain ⟨e, hke, hl⟩ := Last.map_iff.1 ((get?_ofList _ k range).1 hg)
    simp only [Prod.mk.injEq] at hke
    obtain ⟨-, rfl⟩ := hke
    refine ⟨e.1, ?_, he e hl.mem⟩
    have hd : Last (fun d : Dependency => registryName d.name = k) e.1 r.needed :=
      hes ▸ Last.map_iff.2 ⟨e, rfl, hl⟩
    simpa only [needed, Last.filter_iff, gives_iff] using hd
  · change ByAppearance (ofList _).keys _
    rw [hk]
    exact byAppearance_distinct _

end Record

/-! ## Versions of lines -/

namespace Index

variable {depth : Nat} {source : Option Text} {n : Nat} {s : Text} {lines : List Text}
  {reg reg' : Registry} {r : Record}

theorem holdsRecord_of_readRecord (hb : s.isBlank = false)
    (h : readRecord depth source n s = .ok r) : HoldsRecord depth s r := by
  unfold readRecord at h
  split at h
  · cases h
  · cases h
  · cases h
  · rename_i v hv
    exact ⟨hb, v, hv, Result.mapError_eq_ok_iff.1 h⟩

theorem contentOf_ok_cases {a : Option (Record × Dependencies)}
    (h : contentOf depth source n s = .ok a) :
    s.isBlank = true ∧ a = none ∨ s.isBlank = false ∧
      ∃ v : Record × Dependencies, a = some v ∧ HoldsRecord depth s v.1 ∧
        v.1.ranges.result = .ok v.2 := by
  unfold contentOf at h
  split at h
  · rename_i hb
    cases h
    exact .inl ⟨hb, rfl⟩
  · rename_i hb
    rw [Bool.not_eq_true] at hb
    obtain ⟨r, hr, h⟩ := Result.bind_eq_ok_iff.1 h
    obtain ⟨ranges, hm, h⟩ := Result.bind_eq_ok_iff.1 h
    cases h
    exact .inr ⟨hb, (r, ranges), rfl, holdsRecord_of_readRecord hb hr,
      Result.mapError_eq_ok_iff.1 hm⟩

theorem versions_of_readLines (h : (readLines depth source n reg lines).result = .ok reg') :
    ∃ vs : List (Record × Dependencies),
      List.Forall₂ (HoldsRecord depth) (lines.filter fun s => !s.isBlank) (vs.map Prod.fst) ∧
      (∀ v ∈ vs, v.1.ranges.result = .ok v.2) ∧
      reg' = vs.foldl (fun r v => r.setVersion v.1 v.2) reg := by
  induction lines generalizing n reg with
  | nil =>
      cases h
      exact ⟨[], .nil, by simp, rfl⟩
  | cons s lines ih =>
      rw [result_readLines_cons] at h
      obtain ⟨a, ha, h⟩ := Result.bind_eq_ok_iff.1 h
      obtain ⟨vs, hvs, hr, rfl⟩ := ih h
      rcases contentOf_ok_cases ha with ⟨hb, rfl⟩ | ⟨hb, v, rfl, hv, hm⟩
      · exact ⟨vs, by simpa [hb] using hvs, hr, rfl⟩
      · refine ⟨v :: vs, ?_, List.forall_mem_cons.2 ⟨hm, hr⟩, rfl⟩
        rw [List.filter_cons_of_pos (by simp [hb])]
        exact .cons hv hvs

/-- The entry that a version makes, under its package and its own name. -/
def versionEntry (v : Record × Dependencies) : Text × Text × Dependencies :=
  (registryName v.1.name, withoutBuildTag v.1.version, v.2)

theorem foldl_setVersion (vs : List (Record × Dependencies)) :
    vs.foldl (fun r v => r.setVersion v.1 v.2) (∅ : Registry) = graftAll (vs.map versionEntry) := by
  rw [graftAll, List.foldl_map]
  rfl

theorem version?_graftAll (vs : List (Record × Dependencies)) (p v : Text) (ranges : Dependencies) :
    Registry.version? (graftAll (vs.map versionEntry)) p v = some ranges ↔
      ∃ r, Last (fun w => w.1.IsOf p v) (r, ranges) vs := by
  rw [Registry.version?_eq, get?_get?_graftAll, Last.map_iff]
  constructor
  · rintro ⟨⟨r, m⟩, he, hl⟩
    obtain rfl : m = ranges := congrArg (fun e => e.2.2) he
    exact ⟨r, hl⟩
  · rintro ⟨r, hl⟩
    obtain ⟨rfl, rfl⟩ := hl.holds
    exact ⟨(r, ranges), rfl, hl⟩

theorem lastWins_of_versions {vs : List (Record × Dependencies)}
    (h : ∀ v ∈ vs, v.1.ranges.result = .ok v.2) :
    Registry.LastWins (graftAll (vs.map versionEntry)) (vs.map Prod.fst) := by
  refine ⟨?_, ?_, ?_, ?_⟩
  · intro p v
    calc (Registry.version? (graftAll (vs.map versionEntry)) p v).isSome ↔
        ∃ w, Last (fun w => w.1.IsOf p v) w vs := by
          simp only [Option.isSome_iff_exists, version?_graftAll, Prod.exists]
          exact exists_comm
      _ ↔ ∃ w ∈ vs, w.1.IsOf p v := Last.exists_iff
      _ ↔ ∃ r ∈ vs.map Prod.fst, r.IsOf p v := by simp
  · intro p v ranges hr
    obtain ⟨r, hl⟩ := (version?_graftAll vs p v ranges).1 hr
    exact ⟨r, Last.map_iff.2 ⟨(r, ranges), rfl, hl⟩, Record.lastWins_of_ranges (h _ hl.mem)⟩
  · rw [keys_graftAll, List.map_map, List.map_map]
    exact byAppearance_distinct _
  · intro p pkg hp
    have hpkg := getD_get?_graftAll (vs.map versionEntry) p
    rw [hp, Option.getD_some] at hpkg
    rw [hpkg, keys_ofList]
    simp only [List.filter_map, List.map_map, Function.comp_def, versionEntry]
    exact byAppearance_distinct _

theorem result_ofLines (depth : Nat) (source : Option Text) (lines : List Text) :
    (ofLines depth source lines).result = (readLines depth source 1 ∅ lines).result := by
  rw [ofLines, Logged.result_bind]
  simp

/-- The registry of lines has exactly the versions of their records. Each version is what its last
record says and nothing else, and each of its dependencies has the range of the last requirement.
Packages, versions and dependencies stand once each, in the order of their first appearance. -/
theorem ofLines_lastWins (depth : Nat) (source : Option Text) (lines : List Text) (reg : Registry)
    (h : (ofLines depth source lines).result = .ok reg) :
    ∃ records, List.Forall₂ (HoldsRecord depth) (lines.filter fun s => !s.isBlank) records ∧
      reg.LastWins records := by
  rw [result_ofLines] at h
  obtain ⟨vs, hvs, hr, rfl⟩ := versions_of_readLines h
  refine ⟨vs.map Prod.fst, hvs, ?_⟩
  rw [foldl_setVersion]
  exact lastWins_of_versions hr

/-- The line of a crate with one dependency. -/
def dependentLine (name version dependency requirement : Text) : Text :=
  "\x7b\"name\":\"" ++ name ++ "\",\"vers\":\"" ++ version ++
    "\",\"deps\":[\x7b\"name\":\"" ++ dependency ++ "\",\"req\":\"" ++ requirement ++ "\"\x7d]\x7d"

/-- Two spellings of one package and two build tags of one version, with a blank line and another
package in between. -/
theorem ofLines_lastWins_respelled :
    ∃ records, List.Forall₂ (HoldsRecord 990)
        [dependentLine "a-b" "1+x" "c" "> 1", bareLine "z" "2",
          dependentLine "a_b" "1+y" "d-e" "=2"] records ∧
      Registry.LastWins (.ofList [("test/a_b", .ofList [("1", .ofList [("test/d_e", "2")])]),
        ("test/z", .ofList [("2", ∅)])]) records :=
  ofLines_lastWins 990 none [dependentLine "a-b" "1+x" "c" "> 1", " ", bareLine "z" "2",
    dependentLine "a_b" "1+y" "d-e" "=2"] _ (Result.toOption_eq_some.1 (by decide +kernel))

end Index

end CrateIndex
