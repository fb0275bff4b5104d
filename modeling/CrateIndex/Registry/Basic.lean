import CrateIndex.OrderedMap
import CrateIndex.Text.Basic

/-!
# Registries

A registry holds packages, a package its versions, a version the ranges of its dependencies. All
three levels keep the order in which their keys first came.
-/

namespace CrateIndex

/-- The range of each dependency of one version, by the dependency's name. -/
abbrev Dependencies := OrderedMap Text Text

/-- The versions of one package. -/
abbrev Package := OrderedMap Text Dependencies

/-- The packages, by name. -/
abbrev Registry := OrderedMap Text Package

end CrateIndex
