import CrateIndex.Failure
import CrateIndex.Logged
import CrateIndex.Registry.Basic

/-!
# Merging registries

Registries are merged first to last. Where two hold one package, either the later one counts whole,
or the versions of both are kept and the later one counts version by version.
-/

namespace CrateIndex

/-- What becomes of a package that several registries hold. -/
inductive MergePolicy where
  /-- The last registry gives the package. -/
  | replace
  /-- Each version is that of the last registry that has it. -/
  | union
deriving DecidableEq

namespace MergePolicy

def name : MergePolicy → Text
  | .replace => "replace"
  | .union => "union"

def all : List MergePolicy := [.replace, .union]

def ofName (s : Text) : Except Failure MergePolicy :=
  match all.find? fun m => m.name = s with
  | some m => .ok m
  | none => .error (.unknownStrategy s.quoted)

end MergePolicy

/-- A package that was replaced and lost versions by it. -/
structure Replacement where
  package : Text
  lost : Nat
deriving DecidableEq

namespace Replacement

/-- The warning about lost versions. -/
def entry (r : Replacement) : Log.Entry where
  level := .warning
  source := .merging
  message := "Package " ++ r.package ++ " appears in more than one index file; replacing " ++
    Decimal.text r.lost ++ " earlier version(s)"

end Replacement

namespace Registry

/-- The number of versions of `old` that `new` lacks. -/
def lostCount (old new : Package) : Nat := (old.keys.filter fun v => !new.contains v).length

/-- The package that `new` makes of `old`. -/
def mergePackage (strategy : MergePolicy) (old new : Package) : Package :=
  match strategy with
  | .replace => new
  | .union => old.insertAll new.entries

/-- What the arrival of `new` for the package `name` takes away. -/
def replacements (strategy : MergePolicy) (name : Text) (old new : Package) : List Replacement :=
  match strategy with
  | .replace => if lostCount old new = 0 then [] else [⟨name, lostCount old new⟩]
  | .union => []

/-- The registry with one more package merged in, and what was lost. -/
def mergeEntry (strategy : MergePolicy) (merged : Registry) (e : Text × Package) :
    Registry × List Replacement :=
  match merged.get? e.1 with
  | none => (merged.insert e.1 e.2, [])
  | some old =>
    (merged.insert e.1 (mergePackage strategy old e.2), replacements strategy e.1 old e.2)

/-- The registry with packages merged in one after the other. -/
def mergeEntries (strategy : MergePolicy) (merged : Registry) :
    List (Text × Package) → Registry × List Replacement
  | [] => (merged, [])
  | e :: es =>
    let (next, lost) := mergeEntry strategy merged e
    let (last, more) := mergeEntries strategy next es
    (last, lost ++ more)

/-- The registry with registries merged in one after the other. -/
def mergeInto (strategy : MergePolicy) (merged : Registry) :
    List Registry → Registry × List Replacement
  | [] => (merged, [])
  | p :: ps =>
    let (next, lost) := mergeEntries strategy merged p.entries
    let (last, more) := mergeInto strategy next ps
    (last, lost ++ more)

/-- Registries merged first to last, and what was lost. -/
def merge (strategy : MergePolicy) (partials : List Registry) : Registry × List Replacement :=
  mergeInto strategy ∅ partials

/-- The registry with another one merged in; what is lost is warned of. -/
def mergeNext {ε : Type} (strategy : MergePolicy) (merged next : Registry) : Logged ε Registry :=
  let (registry, lost) := mergeEntries strategy merged next.entries
  ⟨lost.map Replacement.entry, .ok registry⟩

/-- Registries merged first to last; what is lost is warned of. -/
def mergeAll {ε : Type} (strategy : MergePolicy) (partials : List Registry) :
    Logged ε Registry :=
  let (registry, lost) := merge strategy partials
  ⟨lost.map Replacement.entry, .ok registry⟩

end Registry

end CrateIndex
