import CrateIndex.Text.Quoted
import CrateIndex.Decimal.Natural

/-!
# UTF-8

Bytes to text and back. A surrogate has no bytes, so writing can fail as well as reading; both
report the place of the first fault.
-/

namespace CrateIndex

/-- The bytes of a code point. A surrogate gets three bytes too, but no text that holds one is
written. -/
def CodePoint.utf8 (c : CodePoint) : List UInt8 :=
  let n := c.val
  if n < 0x80 then [n.toUInt8]
  else if n < 0x800 then [(0xC0 + n / 64).toUInt8, (0x80 + n % 64).toUInt8]
  else if n < 0x10000 then
    [(0xE0 + n / 4096).toUInt8, (0x80 + n / 64 % 64).toUInt8, (0x80 + n % 64).toUInt8]
  else
    [(0xF0 + n / 262144).toUInt8, (0x80 + n / 4096 % 64).toUInt8, (0x80 + n / 64 % 64).toUInt8,
      (0x80 + n % 64).toUInt8]

namespace Utf8

/-- Adjacent surrogates in a text, and the position of the first of them. -/
structure SurrogateRun where
  position : Nat
  run : Text
deriving DecidableEq

/-- The first run of adjacent surrogates. -/
def surrogateRun? (s : Text) : Option SurrogateRun :=
  match s.dropWhile fun c => !c.isSurrogate with
  | [] => none
  | c :: rest =>
    some ⟨(s.takeWhile fun c => !c.isSurrogate).length, c :: rest.takeWhile (·.isSurrogate)⟩

/-- The bytes of a text without surrogates. -/
def encode (s : Text) : Except SurrogateRun (List UInt8) :=
  match surrogateRun? s with
  | some run => .error run
  | none => .ok (s.flatMap CodePoint.utf8)

/-- The number of bytes that a text takes. -/
def size (s : Text) : Nat := (s.flatMap CodePoint.utf8).length

/-- From one position to another, the last included: `3` or `3-5`. -/
def span (first last : Nat) : Text :=
  if first = last then Decimal.text first else Decimal.text first ++ "-" ++ Decimal.text last

def SurrogateRun.message (r : SurrogateRun) : Text :=
  let what : Text := match r.run with
    | [c] => "character '" ++ c.numericEscape ++ "'"
    | _ => "characters"
  let last := r.position + (r.run.length - 1)
  "'utf-8' codec can't encode " ++ what ++ " in position " ++ span r.position last ++
    ": surrogates not allowed"

/-- What is wrong with a byte sequence. -/
inductive Fault where
  /-- No code point starts with the byte. -/
  | startByte
  /-- The byte after those at fault does not continue them. -/
  | continuationByte
  /-- The bytes end within a code point. -/
  | endOfData
deriving DecidableEq

/-- The first bytes that are no UTF-8: a start byte and the bytes that continue it rightly. -/
structure DecodeError where
  position : Nat
  bytes : List UInt8
  fault : Fault
deriving DecidableEq

def Fault.message : Fault → Text
  | .startByte => "invalid start byte"
  | .continuationByte => "invalid continuation byte"
  | .endOfData => "unexpected end of data"

def DecodeError.message (e : DecodeError) : Text :=
  let what : Text := match e.bytes with
    | [b] => "byte 0x" ++ hexDigits 2 b.toNat
    | _ => "bytes"
  let last := e.position + (e.bytes.length - 1)
  "'utf-8' codec can't decode " ++ what ++ " in position " ++ span e.position last ++ ": " ++
    e.fault.message

/-- The byte continues a code point. -/
def isTail (b : UInt8) : Bool := 0x80 ≤ b && b ≤ 0xBF

/-- The byte may come second after `lead`: longer forms than needed, surrogates and numbers from
`0x110000` on are ruled out here. -/
def isSecond (lead b : UInt8) : Bool :=
  isTail b &&
    (if lead = 0xE0 then 0xA0 ≤ b
      else if lead = 0xED then b ≤ 0x9F
      else if lead = 0xF0 then 0x90 ≤ b
      else if lead = 0xF4 then b ≤ 0x8F
      else true)

/-- The six bits that a continuation byte carries. -/
def tailBits (b : UInt8) : Nat := b.toNat - 0x80

/-- The text of the bytes from `position` on. -/
def decodeFrom (position : Nat) : List UInt8 → Except DecodeError Text
  | [] => .ok []
  | a :: rest =>
    if a < 0x80 then (.ofNat a.toNat :: ·) <$> decodeFrom (position + 1) rest
    else if a < 0xC2 || 0xF4 < a then .error ⟨position, [a], .startByte⟩
    else match rest with
      | [] => .error ⟨position, [a], .endOfData⟩
      | b :: rest =>
        if !isSecond a b then .error ⟨position, [a], .continuationByte⟩
        else if a < 0xE0 then
          (.ofNat ((a.toNat - 0xC0) * 64 + tailBits b) :: ·) <$> decodeFrom (position + 2) rest
        else match rest with
          | [] => .error ⟨position, [a, b], .endOfData⟩
          | c :: rest =>
            if !isTail c then .error ⟨position, [a, b], .continuationByte⟩
            else if a < 0xF0 then
              (.ofNat ((a.toNat - 0xE0) * 4096 + tailBits b * 64 + tailBits c) :: ·) <$>
                decodeFrom (position + 3) rest
            else match rest with
              | [] => .error ⟨position, [a, b, c], .endOfData⟩
              | d :: rest =>
                if !isTail d then .error ⟨position, [a, b, c], .continuationByte⟩
                else
                  (.ofNat ((a.toNat - 0xF0) * 262144 + tailBits b * 4096 + tailBits c * 64 +
                    tailBits d) :: ·) <$> decodeFrom (position + 4) rest

/-- The text of the bytes. -/
def decode (bytes : List UInt8) : Except DecodeError Text := decodeFrom 0 bytes

end Utf8

end CrateIndex
