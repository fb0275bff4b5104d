import CrateIndex.Decimal.Shortest
import CrateIndex.Json.Value
import CrateIndex.Text.Quoted

/-!
# JSON values in messages

How a value that is refused is shown to the user.
-/

namespace CrateIndex.Json

/-- Numbers are written without an exponent from `1e-4` on and below `1e16`; an exponent has two
digits or more. -/
def numberLayout : Decimal.Layout where
  plainFrom := -4
  plainBelow := 16
  exponentWidth := 2

mutual

/-- The value as it is shown in a message. -/
def shown : Json → Text
  | .null => "None"
  | .bool b => if b then "True" else "False"
  | .integer n => Decimal.signedText n
  | .float x => numberLayout.render x
  | .string s => s.quoted
  | .array items => "[" ++ Text.join ", " (shownItems items) ++ "]"
  | .object members => "\x7b" ++ Text.join ", " (shownMembers members) ++ "\x7d"

def shownItems : List Json → List Text
  | [] => []
  | v :: vs => shown v :: shownItems vs

def shownMembers : List (Text × Json) → List Text
  | [] => []
  | (name, v) :: rest => (name.quoted ++ ": " ++ shown v) :: shownMembers rest

end

/-- The value inside a sentence: a string stands as it is. -/
def inline : Json → Text
  | .string s => s
  | v => v.shown

end CrateIndex.Json
