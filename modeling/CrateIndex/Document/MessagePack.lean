import CrateIndex.Registry.Basic
import CrateIndex.Text.Utf8

/-!
# The MessagePack document

Maps of strings, each with a header that gives the number of entries or bytes in the least of
three or four widths.
-/

namespace CrateIndex.MessagePack

/-- The low `width` bytes of a number, the highest first. -/
def bigEndian : (width : Nat) → Nat → List UInt8
  | 0, _ => []
  | width + 1, n => bigEndian width (n / 256) ++ [(n % 256).toUInt8]

/-- The header of a map with `n` entries. -/
def mapHeader (n : Nat) : List UInt8 :=
  if n < 16 then [(0x80 + n).toUInt8]
  else if n < 0x10000 then 0xDE :: bigEndian 2 n
  else 0xDF :: bigEndian 4 n

/-- The header of a string of `n` bytes. -/
def stringHeader (n : Nat) : List UInt8 :=
  if n < 32 then [(0xA0 + n).toUInt8]
  else if n < 0x100 then 0xD9 :: bigEndian 1 n
  else if n < 0x10000 then 0xDA :: bigEndian 2 n
  else 0xDB :: bigEndian 4 n

def string (s : Text) : Except Utf8.SurrogateRun (List UInt8) := do
  let bytes ← Utf8.encode s
  return stringHeader bytes.length ++ bytes

/-- A map whose values are written by `value`. -/
def map {ν : Type} (value : ν → Except Utf8.SurrogateRun (List UInt8)) (m : OrderedMap Text ν) :
    Except Utf8.SurrogateRun (List UInt8) := do
  let entries ← m.entries.mapM fun (k, v) => do return (← string k) ++ (← value v)
  return mapHeader m.size ++ entries.flatten

/-- The bytes of the document. -/
def encode (r : Registry) : Except Utf8.SurrogateRun (List UInt8) := map (map (map string)) r

end CrateIndex.MessagePack
