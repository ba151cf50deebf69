/-!
# Finite binary64 numbers

A finite double is a sign, a significand below `2 ^ 53` and a power of two. `Double.ofDecimal`
gives the double nearest to a decimal, a tie going to the even significand, and refuses decimals
beyond the largest finite double.
-/

namespace SeriesQuery

/-- The number `± significand * 2 ^ exponent`. -/
structure Double where
  negative : Bool
  significand : Nat
  exponent : Int
  deriving DecidableEq, Repr

namespace Double

/-- The exponent of the smallest doubles. -/
def minExponent : Int := -1074

/-- The exponent of the largest doubles. -/
def maxExponent : Int := 971

def zero (negative : Bool) : Double := ⟨negative, 0, minExponent⟩

/-- A power of a base, one where the exponent is negative. -/
def power (base : Nat) (exponent : Int) : Nat := Nat.pow base exponent.toNat

/-- The least significand with 53 bits. -/
def leastNormal : Nat := Nat.pow 2 52

/-- The integer nearest to a quotient, a half going to the even neighbour. -/
def roundHalfEven (num den : Nat) : Nat :=
  let q := num / den
  let r := num % den
  if 2 * r < den then q else if den < 2 * r then q + 1 else q + q % 2

/-- The fraction `num / den` divided by a power of two, as a fraction. -/
def scaled (num den : Nat) (exponent : Int) : Nat × Nat :=
  if 0 ≤ exponent then (num, den * power 2 exponent) else (num * power 2 (-exponent), den)

/-- The exponent at which the significand of `num / den` has 53 bits, or the least exponent where
that many bits are not to be had. -/
def exponentOf (num den : Nat) : Int :=
  let low : Int := num.log2 - den.log2 - 53
  let (n, d) := scaled num den low
  max minExponent (if 2 * leastNormal ≤ n / d then low + 1 else low)

/-- The double nearest to the positive fraction `num / den`. -/
def ofFraction? (negative : Bool) (num den : Nat) : Option Double :=
  let exponent := exponentOf num den
  let (n, d) := scaled num den exponent
  let significand := roundHalfEven n d
  let (significand, exponent) :=
    if significand = 2 * leastNormal then (leastNormal, exponent + 1) else (significand, exponent)
  if maxExponent < exponent then none else some ⟨negative, significand, exponent⟩

/-- The double nearest to `± digits * 10 ^ scale`. A decimal of magnitude `10 ^ 309` or more is
above every double and one below `10 ^ (-330)` rounds to zero, so neither needs its power of
ten. -/
def ofDecimal? (negative : Bool) (digits : Nat) (scale : Int) : Option Double :=
  if digits = 0 then some (zero negative)
  else
    let magnitude : Int := scale + (Nat.toDigits 10 digits).length
    if 310 ≤ magnitude then none
    else if magnitude ≤ -330 then some (zero negative)
    else if 0 ≤ scale then ofFraction? negative (digits * power 10 scale) 1
    else ofFraction? negative digits (power 10 (-scale))

end Double

end SeriesQuery
