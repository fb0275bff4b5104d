import CrateIndex.Index.Record
import CrateIndex.Proofs.Result

/-!
# Well-formed records

A value is a record if it satisfies a list of conditions, and each entry of its dependencies
another. The conditions are looked at in order, those of the record before those of the entries, and
the first that is violated is the defect. Only a kind and an optional mark may be left out, and a
list of dependencies; null stands for the first two and not for the list.
-/

namespace CrateIndex

namespace Json

/-- The member of that name, if the value is an object and has one. -/
def field? (name : Text) : Json → Option Json
  | .object members => member? name members
  | _ => none

/-- The member of that name is a string. -/
def HasString (name : Text) (v : Json) : Prop := ∃ s, v.field? name = some (.string s)

/-- What counts as a kind that is not given. -/
inductive Void : Json → Prop
  | null : Void .null
  | false : Void (.bool false)
  | zero : Void (.integer 0)
  | zeroFloat (negative : Bool) (exponent : Int) : Void (.float (.finite negative 0 exponent))
  | emptyString : Void (.string [])
  | emptyArray : Void (.array [])
  | emptyObject : Void (.object [])

theorem isVoid_iff {v : Json} : v.isVoid = true ↔ Void v := by
  constructor
  · intro h
    cases v with
    | null => exact .null
    | bool b =>
        obtain rfl : b = .false := by simpa [isVoid] using h
        exact .false
    | integer n =>
        obtain rfl : n = 0 := by simpa [isVoid] using h
        exact .zero
    | float x =>
        cases x with
        | finite negative m e =>
            obtain rfl : m = 0 := by simpa [isVoid, Decimal.Binary64.isZero] using h
            exact .zeroFloat negative e
        | infinite _ | nan => cases h
    | string s =>
        obtain rfl : s = [] := by simpa [isVoid] using h
        exact .emptyString
    | array items =>
        obtain rfl : items = [] := by simpa [isVoid] using h
        exact .emptyArray
    | object members =>
        obtain rfl : members = [] := by simpa [isVoid] using h
        exact .emptyObject
  · intro h
    cases h <;> rfl

end Json

/-! ## Conditions -/

/-- A condition on a value, and the defect of a value that violates it. -/
structure Condition where
  Holds : Json → Prop
  defect : Json → RecordDefect

namespace Condition

variable {cs : List Condition} {v : Json} {d d' : RecordDefect}

/-- The value satisfies all of the conditions. -/
def Satisfied (cs : List Condition) (v : Json) : Prop := ∀ c ∈ cs, c.Holds v

/-- The first of the conditions that the value violates gives the defect. -/
def FirstViolated (cs : List Condition) (v : Json) (d : RecordDefect) : Prop :=
  First (fun c => c.Holds v) (fun c => ¬ c.Holds v ∧ c.defect v = d) cs

theorem FirstViolated.not_satisfied (h : FirstViolated cs v d) : ¬ Satisfied cs v := by
  obtain ⟨pre, c, post, rfl, -, hc, -⟩ := h
  exact fun hs => hc (hs c (by simp))

theorem satisfied_cons {c : Condition} :
    Satisfied (c :: cs) v ↔ c.Holds v ∧ Satisfied cs v := List.forall_mem_cons

theorem FirstViolated.head {c : Condition} (h : ¬ c.Holds v) :
    FirstViolated (c :: cs) v (c.defect v) := First.head ⟨h, rfl⟩

theorem FirstViolated.tail {c : Condition} (hc : c.Holds v) (h : FirstViolated cs v d) :
    FirstViolated (c :: cs) v d := First.cons hc h

theorem FirstViolated.unique (h : FirstViolated cs v d) (h' : FirstViolated cs v d') : d = d' := by
  induction cs with
  | nil => exact absurd h First.not_nil
  | cons c cs ih =>
      rcases First.cons_cases h with ⟨hc, rfl⟩ | ⟨hc, h⟩
      · rcases First.cons_cases h' with ⟨-, rfl⟩ | ⟨hc', -⟩
        · rfl
        · exact absurd hc' hc
      · rcases First.cons_cases h' with ⟨hc', -⟩ | ⟨-, h'⟩
        · exact absurd hc hc'
        · exact ih h h'

end Condition

open Condition

/-! ## Entries -/

theorem DependencySection.ofName?_name (k : DependencySection) : ofName? k.name = some k := by
  cases k <;> rfl

theorem DependencySection.name_of_ofName? {s : Text} {k : DependencySection}
    (h : ofName? s = some k) : k.name = s := by
  simpa using List.find?_some h

namespace Dependency

/-- The kind is left out or void, or it is the name of a section. -/
def IsKind (o : Option Json) : Prop :=
  ∀ kind, o = some kind → kind.Void ∨ ∃ k : DependencySection, kind = .string k.name

/-- The mark is left out or null, or it is a truth value. -/
def IsMark (o : Option Json) : Prop := ∀ mark, o = some mark → mark = .null ∨ ∃ b, mark = .bool b

/-- What an entry of the dependencies has to satisfy, in this order. -/
def conditions : List Condition :=
  [⟨fun v => ∃ members, v = .object members, .entryNotObject⟩,
    ⟨fun v => v.HasString "name" ∧ v.HasString "req", .entryWithoutNameOrRequirement⟩,
    ⟨fun v => IsKind (v.field? "kind"), fun v => .unknownKind ((v.field? "kind").getD .null)⟩,
    ⟨fun v => IsMark (v.field? "optional"),
      fun v => .optionalNotBool ((v.field? "optional").getD .null)⟩]

/-- The kind that is meant: a normal one if it is left out or void. -/
def SaysKind (o : Option Json) (k : DependencySection) : Prop :=
  o = some (.string k.name) ∨ k = .normal ∧ ∀ kind, o = some kind → kind.Void

/-- The mark that is meant: false if it is left out or null. -/
def SaysMark (o : Option Json) (b : Bool) : Prop :=
  o = some (.bool b) ∨ b = false ∧ ∀ mark, o = some mark → mark = .null

/-- The dependency is what the entry says. -/
structure Describes (v : Json) (d : Dependency) : Prop where
  name : v.field? "name" = some (.string d.name)
  requirement : v.field? "req" = some (.string d.requirement)
  kind : SaysKind (v.field? "kind") d.kind
  optional : SaysMark (v.field? "optional") d.optional

theorem SaysKind.isKind {o : Option Json} {k : DependencySection} (h : SaysKind o k) :
    IsKind o := by
  intro kind hkind
  rcases h with hgiven | ⟨-, hvoid⟩
  · exact .inr ⟨k, Option.some.inj (hkind.symm.trans hgiven)⟩
  · exact .inl (hvoid kind hkind)

theorem SaysMark.isMark {o : Option Json} {b : Bool} (h : SaysMark o b) : IsMark o := by
  intro mark hmark
  rcases h with hgiven | ⟨-, hnull⟩
  · exact .inr ⟨b, Option.some.inj (hmark.symm.trans hgiven)⟩
  · exact .inl (hnull mark hmark)

theorem readKind_of_not_void {v : Json} (hvoid : ¬ v.Void) :
    (∃ k : DependencySection, v = .string k.name ∧ readKind (some v) = .ok k) ∨
      (∀ k : DependencySection, v ≠ .string k.name) ∧
        readKind (some v) = .error (.unknownKind v) := by
  have hread : readKind (some v) = _ := if_neg fun h => hvoid (Json.isVoid_iff.1 h)
  cases v with
  | string s =>
      cases hs : DependencySection.ofName? s with
      | some k =>
          simp only [hs] at hread
          exact .inl ⟨k, by rw [DependencySection.name_of_ofName? hs], hread⟩
      | none =>
          simp only [hs] at hread
          refine .inr ⟨?_, hread⟩
          rintro k ⟨⟩
          rw [DependencySection.ofName?_name] at hs
          cases hs
  | _ => exact .inr ⟨nofun, hread⟩

theorem readKind_cases (o : Option Json) :
    (¬ IsKind o ∧ readKind o = .error (.unknownKind (o.getD .null))) ∨
      ∃ k, SaysKind o k ∧ readKind o = .ok k := by
  cases o with
  | none => exact .inr ⟨.normal, .inr ⟨rfl, nofun⟩, rfl⟩
  | some v =>
      by_cases hvoid : v.Void
      · refine .inr ⟨.normal, .inr ⟨rfl, ?_⟩, if_pos (Json.isVoid_iff.2 hvoid)⟩
        rintro _ ⟨⟩
        exact hvoid
      · rcases readKind_of_not_void hvoid with ⟨k, rfl, hk⟩ | ⟨hname, hk⟩
        · exact .inr ⟨k, .inl rfl, hk⟩
        · refine .inl ⟨fun h => ?_, hk⟩
          rcases h v rfl with hv | ⟨k, hv⟩
          · exact hvoid hv
          · exact hname k hv

theorem readOptional_cases (o : Option Json) :
    (¬ IsMark o ∧ readOptional o = .error (.optionalNotBool (o.getD .null))) ∨
      ∃ b, SaysMark o b ∧ readOptional o = .ok b := by
  cases o with
  | none => exact .inr ⟨false, .inr ⟨rfl, nofun⟩, rfl⟩
  | some v =>
      cases v with
      | null =>
          refine .inr ⟨false, .inr ⟨rfl, ?_⟩, rfl⟩
          rintro _ ⟨⟩
          rfl
      | bool b => exact .inr ⟨b, .inl rfl, rfl⟩
      | _ =>
          refine .inl ⟨fun h => ?_, rfl⟩
          rcases h _ rfl with hv | ⟨b, hv⟩ <;> cases hv

theorem ofJson_of_strings {members : List (Text × Json)} {name requirement : Text}
    (hn : Json.member? "name" members = some (.string name))
    (hr : Json.member? "req" members = some (.string requirement)) :
    ofJson (.object members) = do
      let kind ← readKind (Json.member? "kind" members)
      let optional ← readOptional (Json.member? "optional" members)
      return ⟨name, requirement, kind, optional⟩ := by
  simp only [ofJson, hn, hr]

theorem ofJson_of_not_strings {members : List (Text × Json)}
    (h : ¬ ((Json.object members).HasString "name" ∧ (Json.object members).HasString "req")) :
    ofJson (.object members) = .error (.entryWithoutNameOrRequirement (.object members)) := by
  simp only [ofJson]
  split
  · next hn hr => exact absurd ⟨⟨_, hn⟩, ⟨_, hr⟩⟩ h
  · rfl

/-- An entry has the defect of the first condition that it violates, or it satisfies all of them and
is read as what it describes. -/
theorem ofJson_cases (v : Json) :
    (∃ defect, FirstViolated conditions v defect ∧ ofJson v = .error defect) ∨
      ∃ d, Satisfied conditions v ∧ Describes v d ∧ ofJson v = .ok d := by
  by_cases hobject : ∃ members, v = .object members
  swap
  · refine .inl ⟨_, .head hobject, ?_⟩
    cases v with
    | object members => exact absurd ⟨members, rfl⟩ hobject
    | _ => rfl
  by_cases hnamed : v.HasString "name" ∧ v.HasString "req"
  swap
  · obtain ⟨members, rfl⟩ := hobject
    exact .inl ⟨_, .tail ⟨members, rfl⟩ (.head hnamed), ofJson_of_not_strings hnamed⟩
  have hfields := hnamed
  obtain ⟨members, rfl⟩ := hobject
  obtain ⟨⟨name, hn⟩, requirement, hr⟩ := hfields
  have hobject : ∃ ms, Json.object members = .object ms := ⟨members, rfl⟩
  rcases readKind_cases (Json.member? "kind" members) with ⟨hkind, hk⟩ | ⟨k, hkind, hk⟩
  · refine .inl ⟨_, .tail hobject (.tail hnamed (.head hkind)), ?_⟩
    rw [ofJson_of_strings hn hr, hk]
    rfl
  rcases readOptional_cases (Json.member? "optional" members) with ⟨hmark, hb⟩ | ⟨b, hmark, hb⟩
  · refine .inl ⟨_, .tail hobject (.tail hnamed (.tail hkind.isKind (.head hmark))), ?_⟩
    rw [ofJson_of_strings hn hr, hk, hb]
    rfl
  · refine .inr ⟨⟨name, requirement, k, b⟩, ?_, ⟨hn, hr, hkind, hmark⟩, ?_⟩
    · simp only [conditions, satisfied_cons]
      exact ⟨hobject, hnamed, hkind.isKind, hmark.isMark, List.forall_mem_nil _⟩
    · rw [ofJson_of_strings hn hr, hk, hb]
      rfl

theorem ofJson_succeeds_iff {v : Json} : Result.Succeeds (ofJson v) ↔ Satisfied conditions v := by
  rcases ofJson_cases v with ⟨defect, hv, he⟩ | ⟨d, hs, -, hd⟩
  · simp [Result.Succeeds, he, hv.not_satisfied]
  · simp [Result.Succeeds, hd, hs]

theorem ofJson_eq_error_iff {v : Json} {defect : RecordDefect} :
    ofJson v = .error defect ↔ FirstViolated conditions v defect := by
  rcases ofJson_cases v with ⟨defect', hv, he⟩ | ⟨d, hs, -, hd⟩
  · rw [he, Except.error.injEq]
    exact ⟨fun h => h ▸ hv, fun h => hv.unique h⟩
  · rw [hd]
    exact ⟨fun h => (by cases h), fun h => absurd hs h.not_satisfied⟩

theorem describes_of_ofJson {v : Json} {d : Dependency} (h : ofJson v = .ok d) :
    Describes v d := by
  rcases ofJson_cases v with ⟨defect, -, he⟩ | ⟨d', -, hd, he⟩
  · cases he.symm.trans h
  · cases he.symm.trans h
    exact hd

end Dependency

/-! ## Records -/

namespace Record

/-- What a record has to satisfy before its entries are looked at, in this order. -/
def conditions : List Condition :=
  [⟨fun v => ∃ members, v = .object members, fun _ => .notObject⟩,
    ⟨fun v => v.HasString "name" ∧ v.HasString "vers", fun _ => .withoutNameOrVersion⟩,
    ⟨fun v => ∀ deps, v.field? "deps" = some deps → ∃ entries, deps = .array entries,
      fun _ => .dependenciesNotList⟩]

/-- The entries of the dependencies: none if there is no list. -/
def entriesOf (v : Json) : List Json :=
  match v.field? "deps" with
  | some (.array entries) => entries
  | _ => []

/-- The value satisfies the conditions of a record, and its entries theirs. -/
structure WellFormed (v : Json) : Prop where
  record : Satisfied conditions v
  entries : ∀ entry ∈ entriesOf v, Satisfied Dependency.conditions entry

/-- The defect is that of the first condition that the record violates, or if it violates none that
of the first entry that violates one. -/
def FirstDefect (v : Json) (defect : RecordDefect) : Prop :=
  FirstViolated conditions v defect ∨
    Satisfied conditions v ∧
      First (Satisfied Dependency.conditions) (FirstViolated Dependency.conditions · defect)
        (entriesOf v)

/-- The record is what the value says, with one dependency for each entry. -/
structure Describes (v : Json) (r : Record) : Prop where
  name : v.field? "name" = some (.string r.name)
  version : v.field? "vers" = some (.string r.version)
  dependencies : List.Forall₂ Dependency.Describes (entriesOf v) r.dependencies

theorem ofJson_of_strings {members : List (Text × Json)} {name version : Text}
    (hn : Json.member? "name" members = some (.string name))
    (hv : Json.member? "vers" members = some (.string version)) :
    ofJson (.object members) =
      match entries? (Json.member? "deps" members) with
      | none => .error .dependenciesNotList
      | some entries => Record.mk name version <$> entries.mapM Dependency.ofJson := by
  simp only [ofJson, hn, hv]
  cases entries? (Json.member? "deps" members) with
  | none => rfl
  | some entries => cases entries.mapM Dependency.ofJson <;> rfl

theorem ofJson_of_not_strings {members : List (Text × Json)}
    (h : ¬ ((Json.object members).HasString "name" ∧ (Json.object members).HasString "vers")) :
    ofJson (.object members) = .error .withoutNameOrVersion := by
  simp only [ofJson]
  split
  · next hn hv => exact absurd ⟨⟨_, hn⟩, ⟨_, hv⟩⟩ h
  · rfl

theorem entries?_cases (v : Json) :
    (¬ (∀ deps, v.field? "deps" = some deps → ∃ entries, deps = .array entries) ∧
      entries? (v.field? "deps") = none) ∨
    (∀ deps, v.field? "deps" = some deps → ∃ entries, deps = .array entries) ∧
      entries? (v.field? "deps") = some (entriesOf v) := by
  unfold entriesOf
  cases v.field? "deps" with
  | none => exact .inr ⟨nofun, rfl⟩
  | some deps =>
      cases deps with
      | array entries =>
          refine .inr ⟨?_, rfl⟩
          rintro _ ⟨⟩
          exact ⟨entries, rfl⟩
      | _ =>
          refine .inl ⟨fun h => ?_, rfl⟩
          obtain ⟨entries, he⟩ := h _ rfl
          cases he

/-- A value has the defect of the first condition that it violates, or it satisfies all of them and
its entries are read one by one. -/
theorem ofJson_cases (v : Json) :
    (∃ defect, FirstViolated conditions v defect ∧ ofJson v = .error defect) ∨
      ∃ name version, Satisfied conditions v ∧ v.field? "name" = some (.string name) ∧
        v.field? "vers" = some (.string version) ∧
        ofJson v = Record.mk name version <$> (entriesOf v).mapM Dependency.ofJson := by
  by_cases hobject : ∃ members, v = .object members
  swap
  · refine .inl ⟨_, .head hobject, ?_⟩
    cases v with
    | object members => exact absurd ⟨members, rfl⟩ hobject
    | _ => rfl
  by_cases hnamed : v.HasString "name" ∧ v.HasString "vers"
  swap
  · obtain ⟨members, rfl⟩ := hobject
    exact .inl ⟨_, .tail ⟨members, rfl⟩ (.head hnamed), ofJson_of_not_strings hnamed⟩
  have hfields := hnamed
  obtain ⟨members, rfl⟩ := hobject
  obtain ⟨⟨name, hn⟩, version, hv⟩ := hfields
  have hobject : ∃ ms, Json.object members = .object ms := ⟨members, rfl⟩
  have hread := ofJson_of_strings hn hv
  rcases entries?_cases (.object members) with ⟨hdeps, he⟩ | ⟨hdeps, he⟩
  · refine .inl ⟨_, .tail hobject (.tail hnamed (.head hdeps)), ?_⟩
    rw [Json.field?] at he
    rw [hread, he]
  · refine .inr ⟨name, version, ?_, hn, hv, ?_⟩
    · simp only [conditions, satisfied_cons]
      exact ⟨hobject, hnamed, hdeps, List.forall_mem_nil _⟩
    · rw [Json.field?] at he
      rw [hread, he]

theorem ofJson_eq_error_iff {v : Json} {defect : RecordDefect} :
    ofJson v = .error defect ↔ FirstDefect v defect := by
  rcases ofJson_cases v with ⟨defect', hv, he⟩ | ⟨name, version, hs, -, -, hr⟩
  · rw [he, Except.error.injEq, FirstDefect]
    constructor
    · rintro rfl
      exact .inl hv
    · rintro (h | ⟨hs, -⟩)
      · exact hv.unique h
      · exact absurd hs hv.not_satisfied
  · rw [hr, Result.map_eq_error_iff, First.mapM_eq_error_iff, FirstDefect]
    simp only [Dependency.ofJson_succeeds_iff, Dependency.ofJson_eq_error_iff]
    constructor
    · exact fun h => .inr ⟨hs, h⟩
    · rintro (h | ⟨-, h⟩)
      · exact absurd hs h.not_satisfied
      · exact h

/-- Just the well-formed values are records. The record is what the value says, with the defaults
for what is left out. Any other value has the defect of the first condition that is violated. -/
theorem ofJson_wellFormed (v : Json) :
    ((∃ r, ofJson v = .ok r) ↔ WellFormed v) ∧
    (∀ r, ofJson v = .ok r → Describes v r) ∧
    ∀ defect, ofJson v = .error defect ↔ FirstDefect v defect := by
  refine ⟨?_, ?_, fun defect => ofJson_eq_error_iff⟩
  · rcases ofJson_cases v with ⟨defect, hv, he⟩ | ⟨name, version, hs, -, -, hr⟩
    · rw [he]
      exact ⟨fun ⟨r, h⟩ => (by cases h), fun h => absurd h.record hv.not_satisfied⟩
    · simp only [hr, Result.map_eq_ok_iff]
      constructor
      · rintro ⟨_, ds, hds, rfl⟩
        have hall := Result.succeeds_mapM_iff.1 ⟨ds, hds⟩
        exact ⟨hs, fun entry he => Dependency.ofJson_succeeds_iff.1 (hall entry he)⟩
      · intro h
        obtain ⟨ds, hds⟩ := Result.succeeds_mapM_iff.2 fun entry he =>
          Dependency.ofJson_succeeds_iff.2 (h.entries entry he)
        exact ⟨_, ds, hds, rfl⟩
  · intro r h
    rcases ofJson_cases v with ⟨defect, hv, he⟩ | ⟨name, version, hs, hn, hv, hr⟩
    · cases he.symm.trans h
    · rw [hr] at h
      obtain ⟨ds, hds, rfl⟩ := Result.map_eq_ok_iff.1 h
      refine ⟨hn, hv, ?_⟩
      exact (Result.mapM_eq_ok_iff.1 hds).imp fun _ _ => Dependency.describes_of_ofJson

/-- A list that is null is no list, while an entry's kind that is null is left out. -/
example : ofJson (.object [("name", .string "a"), ("vers", .string "1"), ("deps", .null)]) =
      .error .dependenciesNotList ∧
    Dependency.ofJson (.object [("name", .string "b"), ("req", .string "*"), ("kind", .null)]) =
      .ok ⟨"b", "*", .normal, false⟩ :=
  ⟨rfl, rfl⟩

end Record

end CrateIndex
