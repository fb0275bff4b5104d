import CrateIndex.Registry.Basic
import CrateIndex.Text.Quoted
import CrateIndex.Text.Utf8

/-!
# The JSON document

A registry as JSON text: one member to a line, two spaces to a level, and nothing between the
braces of an empty object. Only what a JSON string cannot hold is escaped.
-/

namespace CrateIndex.JsonText

/-- A code point inside a JSON string. -/
def escape (c : CodePoint) : Text :=
  if c = '"' then "\\\""
  else if c = '\\' then "\\\\"
  else if c = '\n' then "\\n"
  else if c = '\r' then "\\r"
  else if c = '\t' then "\\t"
  else if c.val = 8 then "\\b"
  else if c.val = 12 then "\\f"
  else if c.val < 32 then "\\u" ++ hexDigits 4 c.val
  else [c]

def quote : CodePoint := .ofChar '"'

def string (s : Text) : Text := quote :: s.flatMap escape ++ [quote]

def indent (depth : Nat) : Text := List.replicate (2 * depth) ' '

/-- An object at some depth, its values being written already. -/
def object (depth : Nat) (members : List (Text × Text)) : Text :=
  if members.isEmpty then "\x7b\x7d"
  else
    let lines := members.map fun (name, value) => indent (depth + 1) ++ string name ++ ": " ++ value
    "\x7b\n" ++ Text.join ",\n" lines ++ "\n" ++ indent depth ++ "\x7d"

def dependencies (d : Dependencies) : Text := object 2 (d.entries.map fun (n, r) => (n, string r))

def package (p : Package) : Text := object 1 (p.entries.map fun (v, d) => (v, dependencies d))

/-- The text of the document. -/
def render (r : Registry) : Text := object 0 (r.entries.map fun (n, p) => (n, package p))

/-- The bytes of the document. -/
def encode (r : Registry) : Except Utf8.SurrogateRun (List UInt8) := Utf8.encode (render r)

end CrateIndex.JsonText
