import CrateIndex.Decimal.Natural
import CrateIndex.Text.Quoted

/-!
# Wildcards

A wildcard requirement names one or two numbers and leaves the rest open: `1.*`, `1.*.*`, `1.2.*`.
It stands for the versions from those numbers on, below the next value of the last one named.
-/

namespace CrateIndex.Wildcard

/-- One part of a wildcard requirement. -/
inductive Part where
  /-- The canonical decimal of a number. -/
  | number (digits : Text)
  | wild
deriving DecidableEq

/-- A part is a star, an `x` of either case, or a number without leading zeros. -/
def Part.ofText? (s : Text) : Option Part :=
  if s = "*" ∨ s = "x" ∨ s = "X" then some .wild
  else if s = "0" then some (.number s)
  else match s with
    | [] => none
    | c :: _ => if s.all CodePoint.isDigit && c != '0' then some (.number s) else none

/-- The parts of a requirement, if there are at most three and each is one. -/
def parts? (expr : Text) : Option (List Part) :=
  let pieces := Text.splitOn '.' expr
  if pieces.length ≤ 3 then pieces.mapM Part.ofText? else none

/-- Why a wildcard requirement has no range. -/
inductive Defect where
  /-- Too many parts, or a part that is none. -/
  | malformed (expr : Text)
  /-- One of its numbers is too long to read. -/
  | tooLong (cause : Decimal.TooManyDigits)
  /-- No dot stands in front of the wildcard. -/
  | undotted
  /-- A component in front of the wildcard is no number. -/
  | emptyComponent
  /-- There are more components in front than the wildcard can follow. -/
  | tooManyComponents
deriving DecidableEq

def Defect.message : Defect → Text
  | .malformed expr => "Invalid NPM block in " ++ expr.quoted ++ ": " ++ expr.quoted
  | .tooLong cause => cause.message
  | .undotted => "wildcard must follow a dot"
  | .emptyComponent => "empty version component"
  | .tooManyComponents => "too many version components before wildcard"

/-- A requirement that fails: it has a defect, or a number that the range needs is too long to be
converted. -/
inductive Failure where
  | defect (expr : Text) (cause : Defect)
  | unwritable (cause : Decimal.TooManyDigits)
deriving DecidableEq

/-- A part can be read. -/
def Part.check : Part → Except Defect Unit
  | .number digits => (Decimal.read digits).mapError .tooLong >>= fun _ => .ok ()
  | .wild => .ok ()

/-- The requirement has parts, and all of them can be read. -/
def check (expr : Text) : Except Defect Unit :=
  match parts? expr with
  | some parts => parts.forM Part.check
  | none => .error (.malformed expr)

/-- The numbers of the text in front of a wildcard. A dot stands behind each of them. -/
def components (front : Text) : Except Defect (List Text) :=
  if front.getLast? = some (CodePoint.ofChar '.') then
    let numbers := Text.splitOn '.' front.dropLast
    if numbers.all fun s => !s.isEmpty && s.all CodePoint.isDigit then .ok numbers
    else .error .emptyComponent
  else .error .undotted

def number (digits : Text) : Except Failure Nat := (Decimal.read digits).mapError .unwritable

def written (n : Nat) : Except Failure Text := (Decimal.write n).mapError .unwritable

/-- The versions that begin with the number `a`. -/
def majorRange (a bound : Text) : Text := ">=" ++ a ++ ".0.0 <" ++ bound ++ ".0.0-0"

/-- The versions that begin with the numbers `a` and `b`. -/
def minorRange (a b bound : Text) : Text :=
  ">=" ++ a ++ "." ++ b ++ ".0 <" ++ a ++ "." ++ bound ++ ".0-0"

/-- The range of the numbers in front of a wildcard. Two wildcards can follow one number only. -/
def rangeOf (expr : Text) (twice : Bool) (numbers : List Text) : Except Failure Text :=
  match numbers, twice with
  | [a], _ => do
    let major ← number a
    return majorRange (← written major) (← written (major + 1))
  | [a, b], false => do
    let major ← number a
    let minor ← number b
    return minorRange (← written major) (← written minor) (← written (minor + 1))
  | _, _ => .error (.defect expr .tooManyComponents)

/-- The range of a wildcard requirement, with the text in front of its first wildcard. -/
def range (expr front : Text) : Except Failure Text := do
  (check expr).mapError (.defect expr)
  let numbers ← (components front).mapError (.defect expr)
  rangeOf expr (front.length + 1 < expr.length) numbers

end CrateIndex.Wildcard
