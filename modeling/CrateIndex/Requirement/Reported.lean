import CrateIndex.Logged
import CrateIndex.Requirement.Rule

/-!
# Ranges

The range that a requirement becomes in the registry, with a record of how it was found.
-/

namespace CrateIndex.Requirement

/-- The record of a requirement that was converted or passed on. -/
def entry (expr : Text) (d : Conversion) : Log.Entry :=
  match d.rule with
  | some rule =>
    { level := .debug
      source := .requirements
      message := "Desugared " ++ expr.quoted ++ " -> " ++ d.range.quoted
      details := Log.details [("component", some (.text "desugar")),
        ("rule", some (.text rule.name)), ("outcome", some (.text "matched"))] }
  | none =>
    { level := .debug
      source := .requirements
      message := "No desugar rule for " ++ expr.quoted ++ "; passing through"
      details := Log.details [("component", some (.text "desugar")),
        ("outcome", some (.text "passthrough"))] }

/-- The range of a requirement. -/
def toRange (expr : Text) : Logged Wildcard.Failure Text := do
  let d ← Logged.ofExcept (convert expr)
  Logged.note (entry expr d)
  return d.range

end CrateIndex.Requirement
