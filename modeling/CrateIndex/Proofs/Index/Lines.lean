import CrateIndex.Index.Lines
import CrateIndex.Proofs.Requirement.Table
import CrateIndex.Proofs.Result

/-!
# What a line adds

Reading a line does not look at the registry: a line adds nothing, adds one version, or fails. Lines
read one after the other add up, and they fail with the first of them that does.
-/

namespace CrateIndex

open Result

/-! ## Ranges of a record -/

/-- The dependency's requirement has a range. -/
def Dependency.HasRange (d : Dependency) : Prop := Succeeds (Requirement.convert d.requirement)

/-- The dependency's requirement has none, for a cause of the kind `P`. -/
def Dependency.LacksRange (P : Wildcard.Failure → Prop) (d : Dependency) : Prop :=
  Fails P (Requirement.convert d.requirement)

namespace Record

variable {ds : List Dependency}

theorem rangesFrom_succeeds (ranges : Dependencies) (h : ∀ d ∈ ds, d.HasRange) :
    Succeeds (rangesFrom ranges ds).result := by
  induction ds generalizing ranges with
  | nil => exact ⟨ranges, rfl⟩
  | cons d ds ih =>
      obtain ⟨c, hc⟩ := h d List.mem_cons_self
      rw [rangesFrom, Logged.result_bind, Requirement.result_toRange, hc]
      exact ih _ fun d hd => h d (List.mem_cons_of_mem _ hd)

theorem rangesFrom_fails {P : Wildcard.Failure → Prop} (ranges : Dependencies)
    (h : First Dependency.HasRange (Dependency.LacksRange P) ds) :
    Fails P (rangesFrom ranges ds).result := by
  induction ds generalizing ranges with
  | nil => exact absurd h First.not_nil
  | cons d ds ih =>
      rw [rangesFrom, Logged.result_bind, Requirement.result_toRange]
      rcases h.cons_cases with ⟨f, hf, hp⟩ | ⟨⟨c, hc⟩, h⟩
      · rw [hf]
        exact ⟨f, rfl, hp⟩
      · rw [hc]
        exact ih _ h

end Record

/-! ## One line -/

/-- The registry with what a line says. -/
def Registry.add (r : Registry) : Option (Record × Dependencies) → Registry
  | none => r
  | some (record, ranges) => r.setVersion record ranges

namespace Index

variable {depth : Nat} {source : Option Text} {n : Nat} {s : Text} {lines : List Text}
  {reg : Registry}

/-- What a line says: nothing, or the ranges of one version. -/
def contentOf (depth : Nat) (source : Option Text) (n : Nat) (s : Text) :
    Except Failure (Option (Record × Dependencies)) :=
  if s.isBlank then .ok none
  else do
    let record ← readRecord depth source n s
    let ranges ← record.ranges.result.mapError (wildcardFailure source n record)
    return some (record, ranges)

/-- What a line says, wherever it stands. -/
def content? (depth : Nat) (s : Text) : Option (Option (Record × Dependencies)) :=
  (contentOf depth none 0 s).toOption

theorem result_readLine :
    (readLine depth source n reg s).result = reg.add <$> contentOf depth source n s := by
  unfold readLine contentOf
  split
  · rfl
  · cases readRecord depth source n s with
    | error f => rfl
    | ok record =>
        simp only [Logged.result_bind, Logged.result_ofExcept, Logged.result_mapError,
          Result.ok_bind]
        cases record.ranges.result with
        | error f => rfl
        | ok ranges => rfl

theorem result_readLines_cons :
    (readLines depth source n reg (s :: lines)).result =
      contentOf depth source n s >>= fun a =>
        (readLines depth source (n + 1) (reg.add a) lines).result := by
  rw [readLines, Logged.result_bind, result_readLine]
  cases contentOf depth source n s with
  | error f => rfl
  | ok a => rfl

theorem toOption_readRecord (source source' : Option Text) (n n' : Nat) (s : Text) :
    (readRecord depth source n s).toOption = (readRecord depth source' n' s).toOption := by
  unfold readRecord
  split <;> simp

theorem toOption_contentOf : (contentOf depth source n s).toOption = content? depth s := by
  unfold content? contentOf
  split
  · rfl
  · simp [toOption_readRecord source none n 0 s]

/-- Lines that can all be read add up; otherwise the reading fails. -/
theorem toOption_readLines (source : Option Text) (n : Nat) (reg : Registry) (lines : List Text) :
    (readLines depth source n reg lines).result.toOption =
      (lines.mapM (content? depth)).map fun as => as.foldl Registry.add reg := by
  induction lines generalizing n reg with
  | nil => rfl
  | cons s lines ih =>
      rw [result_readLines_cons, List.mapM_cons, Result.toOption_bind, toOption_contentOf]
      cases content? depth s with
      | none => rfl
      | some a =>
          simp only [Option.bind_some, ih]
          cases lines.mapM (content? depth) with
          | none => rfl
          | some as => rfl

/-- The line of a crate without dependencies. -/
def bareLine (name version : Text) : Text :=
  "\x7b\"name\":\"" ++ name ++ "\",\"vers\":\"" ++ version ++ "\"\x7d"

/-- The registry that lines add up to, if they can all be read. -/
def total? (depth : Nat) (lines : List Text) : Option Registry :=
  (lines.mapM (content? depth)).map fun as => as.foldl Registry.add ∅

theorem toOption_ofLines (source : Option Text) (lines : List Text) :
    (ofLines depth source lines).result.toOption = total? depth lines := by
  rw [total?, ← toOption_readLines source 1, ofLines, Logged.result_bind]
  cases (readLines depth source 1 ∅ lines).result with
  | error f => rfl
  | ok r => rfl

end Index

end CrateIndex
