import CrateIndex.Decimal.Binary64
import CrateIndex.OrderedMap
import CrateIndex.Text.Basic

/-!
# JSON values

A line of the index is one JSON value. Whole numbers have no bound, others are floating point, and
an object keeps its members in order, each name once.
-/

namespace CrateIndex

inductive Json where
  | null
  | bool (b : Bool)
  | integer (n : Int)
  | float (x : Decimal.Binary64)
  | string (s : Text)
  | array (items : List Json)
  | object (members : List (Text × Json))

namespace Json

/-- The member of that name. -/
def member? (name : Text) (members : List (Text × Json)) : Option Json := members.lookup name

/-- Null, false, the zeros, and the empty string, array and object. -/
def isVoid : Json → Bool
  | .null => true
  | .bool b => !b
  | .integer n => n = 0
  | .float x => x.isZero
  | .string s => s.isEmpty
  | .array items => items.isEmpty
  | .object members => members.isEmpty

end Json

end CrateIndex
