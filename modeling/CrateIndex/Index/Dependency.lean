import CrateIndex.Json.Shown

/-!
# Dependencies

An entry of a record's dependency list. Old entries leave out the kind and whether the dependency
is optional; it is a normal and required one then.
-/

namespace CrateIndex

/-- The section in which a dependency is declared. -/
inductive DependencySection where
  | normal
  | dev
  | build
deriving DecidableEq

namespace DependencySection

def name : DependencySection → Text
  | .normal => "normal"
  | .dev => "dev"
  | .build => "build"

def ofName? (s : Text) : Option DependencySection := [normal, dev, build].find? fun k => k.name = s

end DependencySection

/-- One dependency of one version. -/
structure Dependency where
  name : Text
  requirement : Text
  kind : DependencySection := .normal
  optional : Bool := false
deriving DecidableEq

/-- What is wrong with a record, in the order in which it is looked for. -/
inductive RecordDefect where
  | notObject
  | withoutNameOrVersion
  | dependenciesNotList
  | entryNotObject (entry : Json)
  | entryWithoutNameOrRequirement (entry : Json)
  | unknownKind (kind : Json)
  | optionalNotBool (value : Json)

def RecordDefect.message : RecordDefect → Text
  | .notObject => "record is not a JSON object"
  | .withoutNameOrVersion => "record missing string 'name' or 'vers'"
  | .dependenciesNotList => "record 'deps' is not a list"
  | .entryNotObject entry => "dependency entry is not an object: " ++ entry.shown
  | .entryWithoutNameOrRequirement entry => "dependency entry missing name or req: " ++ entry.shown
  | .unknownKind kind => "unknown dependency kind '" ++ kind.inline ++ "'"
  | .optionalNotBool value => "dependency 'optional' is not a boolean: " ++ value.shown

namespace Dependency

/-- The dependency is needed to use the package. -/
def isNeeded (d : Dependency) : Bool := d.kind = .normal && !d.optional

/-- The kind that a member gives: normal if there is none or it is empty. -/
def readKind : Option Json → Except RecordDefect DependencySection
  | none => .ok .normal
  | some v =>
    if v.isVoid then .ok .normal
    else match v with
      | .string s => match DependencySection.ofName? s with
        | some k => .ok k
        | none => .error (.unknownKind v)
      | _ => .error (.unknownKind v)

/-- Whether a member says that the dependency is optional. -/
def readOptional : Option Json → Except RecordDefect Bool
  | none | some .null => .ok false
  | some (.bool b) => .ok b
  | some v => .error (.optionalNotBool v)

/-- The dependency of an entry. -/
def ofJson (entry : Json) : Except RecordDefect Dependency :=
  match entry with
  | .object members =>
    match Json.member? "name" members, Json.member? "req" members with
    | some (.string name), some (.string requirement) => do
      let kind ← readKind (Json.member? "kind" members)
      let optional ← readOptional (Json.member? "optional" members)
      return ⟨name, requirement, kind, optional⟩
    | _, _ => .error (.entryWithoutNameOrRequirement entry)
  | _ => .error (.entryNotObject entry)

end Dependency

end CrateIndex
