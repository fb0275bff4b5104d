/-!
# Ranges of numbers

A property of code points is written as the ascending list of its ranges, ends included.
-/

namespace CrateIndex

/-- Ascending ranges of code point numbers, both ends included. -/
abbrev Ranges := List (Nat × Nat)

/-- Some range holds the number. The ranges ascend, so the search ends at the first that starts
beyond it. -/
def Ranges.holds : Ranges → Nat → Bool
  | [], _ => false
  | (lo, hi) :: rs, n => if n < lo then false else n ≤ hi || Ranges.holds rs n

end CrateIndex
