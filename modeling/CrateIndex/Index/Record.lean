import CrateIndex.Index.Dependency

/-!
# Records

A line of the index describes one published version of one crate. Members that are not used here
may hold anything.
-/

namespace CrateIndex

/-- One published version of one crate. -/
structure Record where
  name : Text
  version : Text
  dependencies : List Dependency
deriving DecidableEq

namespace Record

/-- The entries of the dependency list; without one there are none. -/
def entries? : Option Json → Option (List Json)
  | none => some []
  | some (.array entries) => some entries
  | some _ => none

/-- The record of a value. The first defect counts. -/
def ofJson : Json → Except RecordDefect Record
  | .object members =>
    match Json.member? "name" members, Json.member? "vers" members with
    | some (.string name), some (.string version) =>
      match entries? (Json.member? "deps" members) with
      | none => .error .dependenciesNotList
      | some entries => do return ⟨name, version, ← entries.mapM Dependency.ofJson⟩
    | _, _ => .error .withoutNameOrVersion
  | _ => .error .notObject

/-- The dependencies that the registry keeps. -/
def needed (r : Record) : List Dependency := r.dependencies.filter Dependency.isNeeded

end Record

end CrateIndex
