/-!
# Binary floating point, 64 bits

A decimal is read as the nearest value of 53 significant bits; halfway between two, the even one
is taken. What is too large becomes infinite, what is too small a zero.
-/

namespace CrateIndex.Decimal

/-- `digits * 10 ^ exponent`, without a sign. -/
structure Scientific where
  digits : Nat
  exponent : Int
deriving DecidableEq

/-- The power `b ^ e`; with a negative exponent it is one. -/
def power (b : Nat) (e : Int) : Nat := Nat.pow b e.toNat

/-- The quotient rounded to the nearest number, halves to the even one. -/
def roundQuotient (num den : Nat) : Nat :=
  let q := num / den
  let twice := 2 * (num % den)
  if twice < den || (twice = den && q % 2 = 0) then q else q + 1

/-- A 64-bit floating point value. A finite one is `significand * 2 ^ exponent` with a sign, where
the significand has 53 bits, or the exponent is the least, `-1074`. -/
inductive Binary64 where
  | finite (negative : Bool) (significand : Nat) (exponent : Int)
  | infinite (negative : Bool)
  | nan
deriving DecidableEq

namespace Binary64

/-- The least exponent, that of the smallest values. -/
def leastExponent : Int := -1074

/-- The quotient in units of `2 ^ q`, rounded. -/
def roundInUnits (num den : Nat) (q : Int) : Nat :=
  roundQuotient (num * power 2 (-q)) (den * power 2 q)

/-- The significand and exponent nearest to a positive quotient. The difference of the binary
logarithms is off the quotient's by less than one, so one of two exponents gives 53 bits. -/
def nearestParts (num den : Nat) : Nat × Int :=
  let q := max ((num.log2 : Int) - den.log2 - 53) leastExponent
  let q := if power 2 53 * (den * power 2 q) ≤ num * power 2 (-q) then q + 1 else q
  let m := roundInUnits num den q
  if m = power 2 53 then (power 2 52, q + 1) else (m, q)

/-- The value nearest to a decimal. Decimals far outside the range are not expanded. -/
def nearest (negative : Bool) (d : Scientific) : Binary64 :=
  if d.digits = 0 then .finite negative 0 leastExponent
  else if 310 < d.exponent then .infinite negative
  else if d.exponent < -((d.digits.log2 : Int) + 400) then .finite negative 0 leastExponent
  else
    let (m, q) := nearestParts (d.digits * power 10 d.exponent) (power 10 (-d.exponent))
    if 971 < q then .infinite negative else .finite negative m q

/-- The value is zero, of either sign. -/
def isZero : Binary64 → Bool
  | .finite _ m _ => m = 0
  | _ => false

end Binary64

end CrateIndex.Decimal
