/-!
# Text

Text is a list of code points. Escapes in an index line can name a surrogate on its own, so a
code point here is any number below `0x110000`, not only a Unicode scalar value.
-/

namespace CrateIndex

/-- A code point: a Unicode scalar value or a surrogate. -/
structure CodePoint where
  val : Nat
  isLt : val < 0x110000
deriving DecidableEq

/-- A text, code point by code point. -/
abbrev Text := List CodePoint

namespace CodePoint

theorem ext_val {a b : CodePoint} (h : a.val = b.val) : a = b := by
  cases a; cases b; cases h; rfl

theorem val_inj {a b : CodePoint} : a.val = b.val ↔ a = b := ⟨ext_val, fun h => h ▸ rfl⟩

/-- Every scalar value is a code point. -/
def ofChar (c : Char) : CodePoint where
  val := c.toNat
  isLt := by
    have h := c.valid
    simp only [UInt32.isValidChar, Nat.isValidChar] at h
    simp only [Char.toNat]
    omega

instance : Coe Char CodePoint := ⟨ofChar⟩

@[simp] theorem val_ofChar (c : Char) : (ofChar c).val = c.toNat := rfl

@[simp] theorem ofChar_inj {a b : Char} : ofChar a = ofChar b ↔ a = b := by
  refine ⟨fun h => ?_, fun h => h ▸ rfl⟩
  have h := congrArg val h
  simpa [Char.toNat_inj] using h

/-- The code point of that number; a number that is none gives `U+FFFD`. -/
def ofNat (n : Nat) : CodePoint := if h : n < 0x110000 then ⟨n, h⟩ else ⟨0xFFFD, by decide⟩

theorem val_ofNat {n : Nat} (h : n < 0x110000) : (ofNat n).val = n := by simp [ofNat, h]

/-- The first half of a pair of surrogates. -/
def isHighSurrogate (c : CodePoint) : Bool := 0xD800 ≤ c.val && c.val < 0xDC00

/-- The second half of a pair of surrogates. -/
def isLowSurrogate (c : CodePoint) : Bool := 0xDC00 ≤ c.val && c.val < 0xE000

def isSurrogate (c : CodePoint) : Bool := 0xD800 ≤ c.val && c.val < 0xE000

/-- `0` to `9`, and no other digit of Unicode. -/
def isDigit (c : CodePoint) : Bool := 48 ≤ c.val && c.val ≤ 57

/-- The order of code points by number. -/
instance : LE CodePoint := ⟨fun a b => a.val ≤ b.val⟩

instance (a b : CodePoint) : Decidable (a ≤ b) := inferInstanceAs (Decidable (a.val ≤ b.val))

end CodePoint

namespace Text

def ofString (s : String) : Text := s.toList.map .ofChar

instance : Coe String Text := ⟨ofString⟩

/-- The order by code points: a text comes before those that it begins. -/
def le : Text → Text → Bool
  | [], _ => true
  | _ :: _, [] => false
  | a :: s, b :: t => a.val < b.val || (a = b && le s t)

/-- The pieces between the separators: always one more than there are separators. -/
def splitOn (c : CodePoint) : Text → List Text
  | [] => [[]]
  | x :: s =>
    if x = c then [] :: splitOn c s
    else match splitOn c s with
      | [] => [[x]]
      | w :: ws => (x :: w) :: ws

theorem splitOn_ne_nil (c : CodePoint) (s : Text) : splitOn c s ≠ [] := by
  cases s with
  | nil => simp [splitOn]
  | cons x s =>
    simp only [splitOn]
    split
    · simp
    · split <;> simp

/-- The pieces with a separator text between each two. -/
def join (sep : Text) (pieces : List Text) : Text := List.intercalate sep pieces

/-- The text with its first `a` turned into `b`. -/
def replaceFirst (a b : CodePoint) : Text → Text
  | [] => []
  | x :: s => if x = a then b :: s else x :: replaceFirst a b s

/-- The text before and after the first `c`. -/
def cutAt? (c : CodePoint) : Text → Option (Text × Text)
  | [] => none
  | x :: s => if x = c then some ([], s) else (cutAt? c s).map fun (l, r) => (x :: l, r)

/-- The code points from position `n` to the end, without those at the end that satisfy `p`. -/
def dropRightWhile (p : CodePoint → Bool) (s : Text) : Text := (s.reverse.dropWhile p).reverse

end Text

end CrateIndex
