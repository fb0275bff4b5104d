import CrateIndex.Document.JsonText
import CrateIndex.Document.MessagePack
import CrateIndex.Failure
import CrateIndex.Logged

/-!
# Documents

A registry is written as one document, in one of two formats, or not at all.
-/

namespace CrateIndex

/-- The format of a document. -/
inductive Format where
  | messagePack
  | json
deriving DecidableEq

namespace Format

def name : Format → Text
  | .messagePack => "msgpack"
  | .json => "json"

def ofName (s : Text) : Except Failure Format :=
  match [messagePack, json].find? fun f => f.name = s with
  | some f => .ok f
  | none => .error (.unknownFormat s)

/-- The bytes of a registry. -/
def encode (f : Format) (r : Registry) : Except Utf8.SurrogateRun (List UInt8) :=
  match f with
  | .messagePack => MessagePack.encode r
  | .json => JsonText.encode r

/-- The record of a document that was written. -/
def entry (f : Format) (packages bytes : Nat) : Log.Entry where
  level := .info
  source := .document
  message := "Wrote " ++ Decimal.text packages ++ " package(s) as " ++ f.name ++ " (" ++
    Decimal.text bytes ++ " bytes)"

/-- The bytes of a registry, and the record that they were written. -/
def write (f : Format) (r : Registry) : Logged Failure (List UInt8) := do
  let bytes ← Logged.ofExcept ((f.encode r).mapError .unencodable)
  Logged.note (f.entry r.size bytes.length)
  return bytes

end Format

end CrateIndex
