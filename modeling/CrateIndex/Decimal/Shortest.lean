import CrateIndex.Decimal.Binary64
import CrateIndex.Decimal.Natural

/-!
# Shortest decimals

The decimal of a floating point value has the fewest digits that read back as the value, and of
those the digits nearest to it.
-/

namespace CrateIndex.Decimal

/-- The decimal without the zeros at the end of its digits. -/
def Scientific.stripZeros (d : Scientific) : (fuel : Nat) → Scientific
  | 0 => d
  | fuel + 1 =>
    if d.digits ≠ 0 ∧ d.digits % 10 = 0 then
      Scientific.stripZeros ⟨d.digits / 10, d.exponent + 1⟩ fuel
    else d

namespace Shortest

/-- `num / den < 10 ^ k`. -/
def belowPower (num den : Nat) (k : Int) : Bool := num * power 10 (-k) < den * power 10 k

/-- The least `k` with `num / den < 10 ^ k`. The binary logarithm leaves four candidates. -/
def scale (num den : Nat) : Int :=
  let least := ((num.log2 : Int) - den.log2 - 1) * 30103 / 100000
  ((List.range 3).map fun i => least + (i : Nat)).find? (belowPower num den) |>.getD (least + 3)

/-- The neighbour of the value `num / den` on the grid of `10 ^ e` that reads back as `x`: of two
the nearer, and halfway the even one. -/
def onGrid? (x : Binary64) (num den : Nat) (e : Int) : Option Scientific :=
  let a := num * power 10 (-e) / (den * power 10 e)
  let below : Scientific := ⟨a, e⟩
  let above : Scientific := ⟨a + 1, e⟩
  let readsBack (d : Scientific) : Bool := Binary64.nearest false d = x
  match readsBack below, readsBack above with
  | true, false => some below
  | false, true => some above
  | true, true => some ⟨roundQuotient (num * power 10 (-e)) (den * power 10 e), e⟩
  | false, false => none

/-- The shortest decimal of `m * 2 ^ q`. Seventeen digits read back for every value; should none
do, the decimal is exact. -/
def digits (m : Nat) (q : Int) : Scientific :=
  if m = 0 then ⟨0, 0⟩
  else
    let num := m * power 2 q
    let den := power 2 (-q)
    let k := scale num den
    let found := (List.range 17).findSome? fun (n : Nat) =>
      onGrid? (.finite false m q) num den (k - n - 1)
    let d := found.getD (if 0 ≤ q then ⟨num, 0⟩ else ⟨m * power 5 (-q), q⟩)
    d.stripZeros 400

end Shortest

/-- How a decimal is laid out. -/
structure Layout where
  /-- The least exponent of the first digit that is written with a point and zeros. -/
  plainFrom : Int
  /-- The first exponent that is no longer written so. -/
  plainBelow : Int
  /-- The least number of digits of a written exponent. -/
  exponentWidth : Nat

namespace Layout

def zeros (n : Nat) : Text := List.replicate n (digit 0)

/-- A decimal with a point and no exponent; a whole number keeps one zero behind the point. -/
def plain (digits : Text) (point : Int) : Text :=
  if point ≤ 0 then "0." ++ zeros (-point).toNat ++ digits
  else
    let n := point.toNat
    if digits.length ≤ n then digits ++ zeros (n - digits.length) ++ ".0"
    else digits.take n ++ "." ++ digits.drop n

/-- A decimal with one digit before the point and a signed exponent. -/
def withExponent (l : Layout) (digits : Text) (exponent : Int) : Text :=
  let size := text exponent.natAbs
  let fraction : Text := if digits.length ≤ 1 then "" else "." ++ digits.drop 1
  digits.take 1 ++ fraction ++ (if exponent < 0 then "e-" else "e+") ++
    zeros (l.exponentWidth - size.length) ++ size

/-- The text of a floating point value. -/
def render (l : Layout) : Binary64 → Text
  | .nan => "nan"
  | .infinite negative => if negative then "-inf" else "inf"
  | .finite negative m q =>
    let d := Shortest.digits m q
    let digits := text d.digits
    let exponent := digits.length + d.exponent - 1
    let body :=
      if l.plainFrom ≤ exponent && exponent < l.plainBelow then plain digits (exponent + 1)
      else l.withExponent digits exponent
    if negative then "-" ++ body else body

end Layout

end CrateIndex.Decimal
