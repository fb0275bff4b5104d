import CrateIndex.Decimal.Natural
import CrateIndex.Json.Value

/-!
# Reading JSON

The reader takes a whole text or reports the first fault from the left. Beyond the grammar it takes
`NaN` and the infinities, and an escape may name a surrogate on its own.
-/

namespace CrateIndex.Json

/-- A fault in the form of a text. -/
inductive Malformed where
  | expectingValue
  | expectingName
  | expectingColon
  | expectingComma
  | controlCharacter
  | unterminatedString
  | unknownEscape
  | badNumericEscape
  | extraData
  | byteOrderMark
deriving DecidableEq

/-- The two kinds of values that hold others. -/
inductive Container where
  | array
  | object
deriving DecidableEq

/-- Why a text is not read. -/
inductive ReadError where
  | malformed (cause : Malformed)
  /-- A whole number has too many digits. -/
  | tooLong (cause : Decimal.TooManyDigits)
  /-- A container of that kind stands inside too many others. -/
  | tooDeep (container : Container)
deriving DecidableEq

def Malformed.message : Malformed → Text
  | .expectingValue => "Expecting value"
  | .expectingName => "Expecting property name enclosed in double quotes"
  | .expectingColon => "Expecting ':' delimiter"
  | .expectingComma => "Expecting ',' delimiter"
  | .controlCharacter => "Invalid control character at"
  | .unterminatedString => "Unterminated string starting at"
  | .unknownEscape => "Invalid \\escape"
  | .badNumericEscape => "Invalid \\uXXXX escape"
  | .extraData => "Extra data"
  | .byteOrderMark => "Unexpected UTF-8 BOM (decode using utf-8-sig)"

def Container.noun : Container → Text
  | .array => "array"
  | .object => "object"

def ReadError.message : ReadError → Text
  | .malformed cause => cause.message
  | .tooLong cause => cause.message
  | .tooDeep container =>
    "maximum recursion depth exceeded while decoding a JSON " ++ container.noun ++
      " from a unicode string"

namespace Reader

def fail {α : Type} (cause : Malformed) : Except ReadError α := .error (.malformed cause)

/-- Space, tab, line feed and carriage return. -/
def isSpace (c : CodePoint) : Bool := c = ' ' || c = '\t' || c = '\n' || c = '\r'

def skipSpace (s : Text) : Text := s.dropWhile isSpace

/-- The text behind `lead`, if it starts so. -/
def behind? : (lead : Text) → Text → Option Text
  | [], s => some s
  | _ :: _, [] => none
  | a :: lead, c :: s => if a = c then behind? lead s else none

/-! ## Strings -/

/-- The code point that a backslash and this one stand for. -/
def simpleEscape? (c : CodePoint) : Option CodePoint :=
  if c = '"' || c = '\\' || c = '/' then some c
  else if c = 'b' then some (.ofNat 8)
  else if c = 'f' then some (.ofNat 12)
  else if c = 'n' then some '\n'
  else if c = 'r' then some '\r'
  else if c = 't' then some '\t'
  else none

def hexValue? (c : CodePoint) : Option Nat :=
  if c.isDigit then some (c.val - 48)
  else if 65 ≤ c.val && c.val ≤ 70 then some (c.val - 55)
  else if 97 ≤ c.val && c.val ≤ 102 then some (c.val - 87)
  else none

/-- The code point of four hexadecimal digits. -/
def unit? (a b c d : CodePoint) : Option CodePoint := do
  return .ofNat ((((← hexValue? a) * 16 + (← hexValue? b)) * 16 + (← hexValue? c)) * 16 +
    (← hexValue? d))

/-- A code point inside a string, and whether a numeric escape named it. -/
structure Unit where
  numeric : Bool
  point : CodePoint
deriving DecidableEq

/-- The code point of a pair of surrogates. -/
def joinPair (high low : CodePoint) : CodePoint :=
  .ofNat (0x10000 + (high.val - 0xD800) * 0x400 + (low.val - 0xDC00))

/-- The text of a string. Two numeric escapes in a row that name a pair of surrogates stand for one
code point. -/
def textOfUnits : List Unit → Text
  | [] => []
  | [u] => [u.point]
  | u :: v :: us =>
    if u.numeric && v.numeric && u.point.isHighSurrogate && v.point.isLowSurrogate then
      joinPair u.point v.point :: textOfUnits us
    else u.point :: textOfUnits (v :: us)

/-- The result changed by `f`, with the same rest. -/
def mapResult {α β : Type} (f : α → β) : Except ReadError (α × Text) → Except ReadError (β × Text)
  | .ok (a, s) => .ok (f a, s)
  | .error e => .error e

/-- The units from a place inside a string on, and the text behind the closing quote. Four
hexadecimal digits at the very end of the text are refused like missing ones. -/
def units : Text → Except ReadError (List Unit × Text)
  | [] => fail .unterminatedString
  | c :: s =>
    if c = '"' then .ok ([], s)
    else if c = '\\' then
      match s with
      | [] => fail .unterminatedString
      | e :: s =>
        if e = 'u' then
          match s with
          | a :: b :: c :: d :: x :: s =>
            match unit? a b c d with
            | none => fail .badNumericEscape
            | some point => mapResult (⟨true, point⟩ :: ·) (units (x :: s))
          | _ => fail .badNumericEscape
        else
          match simpleEscape? e with
          | none => fail .unknownEscape
          | some point => mapResult (⟨false, point⟩ :: ·) (units s)
    else if c.val < 0x20 then fail .controlCharacter
    else mapResult (⟨false, c⟩ :: ·) (units s)

/-- The rest of a string behind its opening quote. -/
def string (s : Text) : Except ReadError (Text × Text) := mapResult textOfUnits (units s)

/-! ## Numbers -/

/-- The digits behind a point, and the rest; nothing is taken unless a digit follows the point. -/
def fraction? : Text → Option (Text × Text)
  | p :: d :: s =>
    if p = '.' && d.isDigit then
      some (d :: s.takeWhile CodePoint.isDigit, s.dropWhile CodePoint.isDigit)
    else none
  | _ => none

/-- The exponent behind an `e`, and the rest; nothing is taken unless it has a digit. -/
def exponent? : Text → Option (Int × Text)
  | e :: s =>
    if e = 'e' || e = 'E' then
      let (negative, t) : Bool × Text := match s with
        | c :: r => if c = '-' then (true, r) else if c = '+' then (false, r) else (false, s)
        | [] => (false, s)
      let digits := t.takeWhile CodePoint.isDigit
      if digits.isEmpty then none
      else
        let n : Int := Decimal.value digits
        some (if negative then -n else n, t.dropWhile CodePoint.isDigit)
    else none
  | [] => none

/-- A number of those digits; it is whole if it has neither a fraction nor an exponent. -/
def numberFrom (negative : Bool) (whole : Text) (s : Text) : Except ReadError (Json × Text) :=
  let fraction := fraction? s
  let s := (fraction.map Prod.snd).getD s
  let exponent := exponent? s
  let s := (exponent.map Prod.snd).getD s
  match fraction, exponent with
  | none, none =>
    match Decimal.read whole with
    | .ok n => .ok (.integer (if negative then -(n : Int) else n), s)
    | .error cause => .error (.tooLong cause)
  | _, _ =>
    let decimals := (fraction.map Prod.fst).getD []
    let power := (exponent.map Prod.fst).getD 0
    let d : Decimal.Scientific := ⟨Decimal.value (whole ++ decimals), power - decimals.length⟩
    .ok (.float (.nearest negative d), s)

def number (s : Text) : Except ReadError (Json × Text) :=
  let (negative, t) : Bool × Text := match s with
    | c :: r => if c = '-' then (true, r) else (false, s)
    | [] => (false, s)
  match t with
  | [] => fail .expectingValue
  | c :: r =>
    if c = '0' then numberFrom negative [c] r
    else if c.isDigit then
      numberFrom negative (t.takeWhile CodePoint.isDigit) (t.dropWhile CodePoint.isDigit)
    else fail .expectingValue

/-- The values that are written as a word. -/
def words : List (Text × Json) :=
  [("null", .null), ("true", .bool true), ("false", .bool false), ("NaN", .float .nan),
    ("Infinity", .float (.infinite false)), ("-Infinity", .float (.infinite true))]

def word? (s : Text) : Option (Json × Text) :=
  words.findSome? fun (w, v) => (behind? w s).map (v, ·)

/-! ## Containers -/

/-- The items up to the closing bracket, from the start of one. An item takes at least one code
point, so the length of the text is fuel enough. -/
def items (value : Text → Except ReadError (Json × Text)) :
    (fuel : Nat) → Text → Except ReadError (List Json × Text)
  | 0, _ => fail .expectingValue
  | fuel + 1, s => do
    let (v, s) ← value s
    match skipSpace s with
    | [] => fail .expectingComma
    | c :: s =>
      if c = ']' then return ([v], s)
      else if c = ',' then
        let (vs, s) ← items value fuel (skipSpace s)
        return (v :: vs, s)
      else fail .expectingComma

/-- The members up to the closing brace, from the start of a name. -/
def members (value : Text → Except ReadError (Json × Text)) :
    (fuel : Nat) → Text → Except ReadError (List (Text × Json) × Text)
  | 0, _ => fail .expectingName
  | fuel + 1, s =>
    match s with
    | [] => fail .expectingName
    | c :: s =>
      if c = '"' then do
        let (name, s) ← string s
        match skipSpace s with
        | [] => fail .expectingColon
        | c :: s =>
          if c = ':' then
            let (v, s) ← value (skipSpace s)
            match skipSpace s with
            | [] => fail .expectingComma
            | c :: s =>
              if c = '\x7d' then return ([(name, v)], s)
              else if c = ',' then
                let (ms, s) ← members value fuel (skipSpace s)
                return ((name, v) :: ms, s)
              else fail .expectingComma
          else fail .expectingColon
      else fail .expectingName

/-- The inside of an array and its closing bracket. -/
def arrayBody (value : Text → Except ReadError (Json × Text)) (s : Text) :
    Except ReadError (Json × Text) :=
  match skipSpace s with
  | [] => fail .expectingValue
  | c :: t =>
    if c = ']' then .ok (.array [], t)
    else mapResult .array (items value (t.length + 1) (c :: t))

/-- The inside of an object and its closing brace. Of members with one name the last gives the
value and the first the place. -/
def objectBody (value : Text → Except ReadError (Json × Text)) (s : Text) :
    Except ReadError (Json × Text) :=
  match skipSpace s with
  | [] => fail .expectingName
  | c :: t =>
    if c = '\x7d' then .ok (.object [], t)
    else mapResult (fun ms => .object (OrderedMap.ofList ms).entries)
      (members value (t.length + 1) (c :: t))

/-- A value at the start of a text, with at most `depth` containers inside one another. -/
def value : (depth : Nat) → Text → Except ReadError (Json × Text)
  | _, [] => fail .expectingValue
  | depth, c :: s =>
    if c = '"' then mapResult .string (string s)
    else if c = '\x7b' then
      match depth with
      | 0 => .error (.tooDeep .object)
      | depth + 1 => objectBody (value depth) s
    else if c = '[' then
      match depth with
      | 0 => .error (.tooDeep .array)
      | depth + 1 => arrayBody (value depth) s
    else match word? (c :: s) with
      | some r => .ok r
      | none => number (c :: s)

end Reader

/-- The value of a text, with at most `depth` containers inside one another. -/
def read (depth : Nat) (s : Text) : Except ReadError Json := do
  if s.head? = some (.ofNat 0xFEFF) then Reader.fail .byteOrderMark
  else
    let (v, rest) ← Reader.value depth (Reader.skipSpace s)
    if (Reader.skipSpace rest).isEmpty then return v else Reader.fail .extraData

end CrateIndex.Json
