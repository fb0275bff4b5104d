import CrateIndex.Text.Basic

/-!
# Natural numbers in decimal

Writing and reading, without bounds and within the bound on digits that the program keeps.
-/

namespace CrateIndex.Decimal

/-- The digit of a number below 10. -/
def digit (n : Nat) : CodePoint := .ofNat (48 + n)

/-- The digits of `n` in front of `rest`. -/
def digitsBefore (rest : Text) (n : Nat) : Text :=
  if n < 10 then digit n :: rest else digitsBefore (digit (n % 10) :: rest) (n / 10)

/-- The canonical decimal of a number. -/
def text (n : Nat) : Text := digitsBefore [] n

/-- The number that digits stand for. -/
def value (s : Text) : Nat := s.foldl (fun v c => 10 * v + (c.val - 48)) 0

/-- The decimal of an integer. -/
def signedText : Int → Text
  | .ofNat n => text n
  | .negSucc n => CodePoint.ofChar '-' :: text (n + 1)

/-- The most digits that are converted between text and number. -/
def digitLimit : Nat := 4300

/-- A conversion refused because of the number of digits. -/
inductive TooManyDigits where
  /-- The text to read has that many digits. -/
  | reading (digits : Nat)
  | writing
deriving DecidableEq

def TooManyDigits.message : TooManyDigits → Text
  | .reading n =>
    "Exceeds the limit (4300 digits) for integer string conversion: value has " ++ text n ++
      " digits; use sys.set_int_max_str_digits() to increase the limit"
  | .writing =>
    "Exceeds the limit (4300 digits) for integer string conversion; " ++
      "use sys.set_int_max_str_digits() to increase the limit"

/-- The number of a run of digits that is not too long. -/
def read (digits : Text) : Except TooManyDigits Nat :=
  if digits.length ≤ digitLimit then .ok (value digits) else .error (.reading digits.length)

/-- The decimal of a number, if it is not too long. -/
def write (n : Nat) : Except TooManyDigits Text :=
  let digits := text n
  if digits.length ≤ digitLimit then .ok digits else .error .writing

theorem digitsBefore_eq (n : Nat) (rest : Text) :
    digitsBefore rest n = digitsBefore [] n ++ rest := by
  induction n using Nat.strongRecOn generalizing rest with
  | ind n ih =>
    rw [digitsBefore, digitsBefore.eq_def []]
    split
    · rfl
    · rw [ih (n / 10) (by omega), ih (n / 10) (by omega) [digit (n % 10)]]
      simp

theorem text_of_lt {n : Nat} (h : n < 10) : text n = [digit n] := by
  rw [text, digitsBefore, if_pos h]

theorem text_of_le {n : Nat} (h : 10 ≤ n) : text n = text (n / 10) ++ [digit (n % 10)] := by
  rw [text, digitsBefore, if_neg (by omega), digitsBefore_eq]; rfl

theorem value_append_digit (s : Text) {n : Nat} (h : n < 10) :
    value (s ++ [digit n]) = 10 * value s + n := by
  simp only [value, List.foldl_append, List.foldl_cons, List.foldl_nil, digit]
  rw [CodePoint.val_ofNat (by omega)]
  omega

@[simp] theorem value_text (n : Nat) : value (text n) = n := by
  induction n using Nat.strongRecOn with
  | ind n ih =>
    by_cases h : n < 10
    · rw [text_of_lt h]
      have := value_append_digit [] h
      simpa [value] using this
    · rw [text_of_le (by omega), value_append_digit _ (by omega), ih _ (by omega)]
      omega

/-- Different numbers have different decimals. -/
theorem text_inj {m n : Nat} : text m = text n ↔ m = n :=
  ⟨fun h => by have := congrArg value h; simpa using this, fun h => h ▸ rfl⟩

end CrateIndex.Decimal
