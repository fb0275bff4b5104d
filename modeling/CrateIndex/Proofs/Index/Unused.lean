import CrateIndex.Proofs.Index.Contents

/-!
# What the registry does not use

Of a record only its name and version count, and of its dependencies only the names and requirements
of those that are needed, in their order. Lines that agree on these give the same registry, or fail
in the same way and at the same place. Other dependencies can stand anywhere among them and hold any
requirement, and other members of records and dependencies can hold anything.
-/

namespace CrateIndex

open Result

theorem Json.member?_cons (name k : Text) (v : Json) (members : List (Text × Json)) :
    member? name ((k, v) :: members) = if name = k then some v else member? name members := by
  by_cases h : name = k
  · simp [member?, h]
  · have hb : (name == k) = false := beq_eq_false_iff_ne.2 h
    simp [member?, List.lookup_cons, hb, h]

/-- What the registry uses of a dependency. -/
def Dependency.use (d : Dependency) : Text × Text := (d.name, d.requirement)

/-- The records are the same as far as the registry uses them. -/
structure Record.SameUse (r r' : Record) : Prop where
  name : r.name = r'.name
  version : r.version = r'.version
  needed : r.needed.map Dependency.use = r'.needed.map Dependency.use

namespace Record

variable {r r' : Record}

theorem rangesFrom_eq_of_use {ds ds' : List Dependency} (ranges : Dependencies)
    (h : ds.map Dependency.use = ds'.map Dependency.use) :
    rangesFrom ranges ds = rangesFrom ranges ds' := by
  induction ds generalizing ranges ds' with
  | nil =>
      rw [List.map_eq_nil_iff.1 h.symm]
  | cons d ds ih =>
      cases ds' with
      | nil => cases h
      | cons d' ds' =>
          simp only [List.map_cons, List.cons.injEq, Dependency.use, Prod.mk.injEq] at h
          obtain ⟨⟨hn, hr⟩, h⟩ := h
          simp only [rangesFrom, hn, hr]
          congr 1
          funext range
          exact ih _ h

theorem SameUse.ranges_eq (h : r.SameUse r') : r.ranges = r'.ranges :=
  rangesFrom_eq_of_use ∅ h.needed

theorem SameUse.setVersion_eq (h : r.SameUse r') (reg : Registry) (ranges : Dependencies) :
    reg.setVersion r ranges = reg.setVersion r' ranges := by
  simp only [Registry.setVersion, h.name, h.version]

theorem SameUse.wildcardFailure_eq (h : r.SameUse r') (source : Option Text) (n : Nat) :
    Index.wildcardFailure source n r = Index.wildcardFailure source n r' := by
  funext f
  cases f with
  | defect expr cause => simp only [Index.wildcardFailure, h.name, h.version]
  | unwritable cause => rfl

/-- Members under other names do not count. -/
theorem ofJson_eq_of_members {members members' : List (Text × Json)}
    (h : ∀ k ∈ (["name", "vers", "deps"] : List Text),
      Json.member? k members = Json.member? k members') :
    ofJson (.object members) = ofJson (.object members') := by
  simp only [List.forall_mem_cons] at h
  simp only [ofJson, h.1, h.2.1, h.2.2.1]

end Record

/-- Members under other names do not count but in the message of a defect. -/
theorem Dependency.toOption_ofJson_eq_of_members {members members' : List (Text × Json)}
    (h : ∀ k ∈ (["name", "req", "kind", "optional"] : List Text),
      Json.member? k members = Json.member? k members') :
    (ofJson (.object members)).toOption = (ofJson (.object members')).toOption := by
  simp only [List.forall_mem_cons] at h
  simp only [ofJson, h.1, h.2.1, h.2.2.1, h.2.2.2.1]
  split
  · rfl
  · rfl

namespace Index

variable {depth : Nat} {source : Option Text} {s t : Text} {r r' : Record}

theorem readLine_of_holds (source : Option Text) (n : Nat) (reg : Registry)
    (h : HoldsRecord depth s r) :
    readLine depth source n reg s =
      r.ranges.mapError (wildcardFailure source n r) >>= fun ranges =>
        pure (reg.setVersion r ranges) := by
  rw [readLine, if_neg (by simp [h.1]), readRecord_of_holds source n h]
  rfl

/-- The lines hold records that are the same as far as the registry uses them. -/
def SameUse (depth : Nat) (s t : Text) : Prop :=
  ∃ r r', HoldsRecord depth s r ∧ HoldsRecord depth t r' ∧ r.SameUse r'

theorem SameUse.readLine_eq (h : SameUse depth s t) (source : Option Text) (n : Nat)
    (reg : Registry) :
    readLine depth source n reg s = readLine depth source n reg t := by
  obtain ⟨r, r', hr, hr', hu⟩ := h
  rw [readLine_of_holds source n reg hr, readLine_of_holds source n reg hr', hu.ranges_eq,
    hu.wildcardFailure_eq]
  simp only [hu.setVersion_eq]

theorem readLines_eq_of_sameUse {xs ys : List Text} (h : List.Forall₂ (SameUse depth) xs ys)
    (source : Option Text) (n : Nat) (reg : Registry) :
    readLines depth source n reg xs = readLines depth source n reg ys := by
  induction h generalizing n reg with
  | nil => rfl
  | cons hs _ ih => simp only [readLines, hs.readLine_eq, ih]

/-- Lines whose records agree on what the registry uses, one by one, give the same registry in the
same order, or the same failure, and make the same log records. What is used of a record and of a
dependency hangs on no members but the named ones. -/
theorem ofLines_unused (depth : Nat) :
    (∀ (source : Option Text) (xs ys : List Text), List.Forall₂ (SameUse depth) xs ys →
      ofLines depth source xs = ofLines depth source ys) ∧
    (∀ members members' : List (Text × Json),
      (∀ k ∈ (["name", "vers", "deps"] : List Text),
        Json.member? k members = Json.member? k members') →
      Record.ofJson (.object members) = Record.ofJson (.object members')) ∧
    ∀ members members' : List (Text × Json),
      (∀ k ∈ (["name", "req", "kind", "optional"] : List Text),
        Json.member? k members = Json.member? k members') →
      (Dependency.ofJson (.object members)).toOption =
        (Dependency.ofJson (.object members')).toOption := by
  refine ⟨?_, fun _ _ => Record.ofJson_eq_of_members,
    fun _ _ => Dependency.toOption_ofJson_eq_of_members⟩
  intro source xs ys h
  simp only [ofLines, readLines_eq_of_sameUse h]

/-- A needed dependency between two of its name, both not needed and without a valid
requirement. -/
def crowdedLine : Text :=
  "\x7b\"yanked\":true,\"vers\":\"1\",\"name\":\"a\",\"deps\":[" ++
    "\x7b\"name\":\"c\",\"req\":\"1*\",\"kind\":\"dev\"\x7d," ++
    "\x7b\"name\":\"c\",\"req\":\"> 1\",\"features\":[]\x7d," ++
    "\x7b\"name\":\"c\",\"req\":\"..*\",\"optional\":true\x7d]\x7d"

/-- The crowded line and one with nothing but what is used, and members with one more among them. -/
theorem ofLines_unused_crowded :
    ofLines 990 (some "f") [dependentLine "a" "1" "c" "> 1"] =
      ofLines 990 (some "f") [crowdedLine] ∧
    Record.ofJson (.object [("name", .string "a"), ("vers", .string "1")]) =
      Record.ofJson (.object [("vers", .string "1"), ("cksum", .null), ("name", .string "a")]) ∧
    (Dependency.ofJson (.object [("name", .string "c"), ("req", .string "1")])).toOption =
      (Dependency.ofJson (.object [("req", .string "1"), ("target", .null),
        ("name", .string "c")])).toOption := by
  have hr : readRecord 990 none 1 (dependentLine "a" "1" "c" "> 1") =
      .ok ⟨"a", "1", [⟨"c", "> 1", .normal, false⟩]⟩ := toOption_eq_some.1 (by decide +kernel)
  have hr' : readRecord 990 none 1 crowdedLine = .ok ⟨"a", "1", [⟨"c", "1*", .dev, false⟩,
      ⟨"c", "> 1", .normal, false⟩, ⟨"c", "..*", .normal, true⟩]⟩ :=
    toOption_eq_some.1 (by decide +kernel)
  have hs := holdsRecord_of_readRecord (by decide +kernel) hr
  have ht := holdsRecord_of_readRecord (by decide +kernel) hr'
  refine ⟨(ofLines_unused 990).1 _ _ _ (.cons ⟨_, _, hs, ht, rfl, rfl, rfl⟩ .nil),
    (ofLines_unused 990).2.1 _ _ ?_, (ofLines_unused 990).2.2 _ _ ?_⟩
  · simp +decide [Json.member?_cons]
  · simp +decide [Json.member?_cons]

end Index

end CrateIndex
