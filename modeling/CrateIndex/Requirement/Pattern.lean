import CrateIndex.Text.Basic

/-!
# Patterns

A pattern is a sequence of pieces and is held against a whole text. Pieces that can take more or
less take as much as they can first and give back as the rest of the pattern asks; the captured
runs are those of the first way that succeeds.
-/

namespace CrateIndex

/-- A set of code points that a piece takes. -/
inductive CharClass where
  | just (c : Char)
  /-- Digits and dots. -/
  | version
  /-- A star or an `x` of either case. -/
  | wild
  /-- ASCII letters and digits, the dot and the hyphen. -/
  | tag
deriving DecidableEq

namespace CharClass

def holds : CharClass → CodePoint → Bool
  | just a, c => c = a
  | version, c => c.isDigit || c = '.'
  | wild, c => c = '*' || c = 'x' || c = 'X'
  | tag, c =>
    c.isDigit || (65 ≤ c.val && c.val ≤ 90) || (97 ≤ c.val && c.val ≤ 122) || c = '.' || c = '-'

end CharClass

/-- One piece of a pattern. -/
inductive Piece where
  /-- One code point of the class. -/
  | one (c : CharClass)
  /-- Any number of code points of the class. -/
  | many (c : CharClass)
  /-- One code point for each class, or nothing. -/
  | maybe (cs : List CharClass)
  /-- One or more code points of the class; the run is captured. -/
  | capture (c : CharClass)
deriving DecidableEq

/-- A pattern for whole texts. -/
abbrev Pattern := List Piece

namespace Pattern

variable {β : Type}

/-- The longest run of `p` at the start of a text whose rest `k` accepts, and what `k` gives. -/
def longestRun (p : CodePoint → Bool) (k : Text → Option β) : Text → Option (Text × β)
  | [] => (k []).map ([], ·)
  | c :: s =>
    if p c then
      match longestRun p k s with
      | some (run, b) => some (c :: run, b)
      | none => (k (c :: s)).map ([], ·)
    else (k (c :: s)).map ([], ·)

/-- The text behind one code point of each class. -/
def dropClasses? : List CharClass → Text → Option Text
  | [], s => some s
  | _ :: _, [] => none
  | c :: cs, x :: s => if c.holds x then dropClasses? cs s else none

/-- The captured runs, if the pattern takes the whole text. -/
def captures? : Pattern → Text → Option (List Text)
  | [], [] => some []
  | [], _ :: _ => none
  | .one _ :: _, [] => none
  | .one c :: ps, x :: s => if c.holds x then captures? ps s else none
  | .many c :: ps, s => (longestRun c.holds (captures? ps) s).map Prod.snd
  | .maybe cs :: ps, s => ((dropClasses? cs s).bind (captures? ps)).or (captures? ps s)
  | .capture _ :: _, [] => none
  | .capture c :: ps, x :: s =>
    if c.holds x then
      (longestRun c.holds (captures? ps) s).map fun (run, runs) => (x :: run) :: runs
    else none

/-- The pattern takes the whole text. -/
def accepts (p : Pattern) (s : Text) : Bool := (captures? p s).isSome

end Pattern

end CrateIndex
