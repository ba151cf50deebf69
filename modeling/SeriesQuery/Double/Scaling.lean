import SeriesQuery.Double.Basic

/-!
# Scaling by powers of ten

Digits are scaled by a power of ten in the arithmetic of doubles: the digits are rounded, then the
power, and their product or quotient once more. The result need not be the double nearest to the
decimal.
-/

namespace SeriesQuery.Double

/-- The double nearest to a product, if that is not beyond the largest double. -/
def mul? (x y : Double) : Option Double :=
  let negative := x.negative != y.negative
  let exponent := x.exponent + y.exponent
  if x.significand = 0 ∨ y.significand = 0 then some (zero negative)
  else ofFraction? negative (x.significand * y.significand * power 2 exponent) (power 2 (-exponent))

/-- The double nearest to a quotient by a double other than zero, if that is not beyond the largest
double. -/
def div? (x y : Double) : Option Double :=
  let negative := x.negative != y.negative
  let exponent := x.exponent - y.exponent
  if x.significand = 0 then some (zero negative)
  else ofFraction? negative (x.significand * power 2 exponent) (y.significand * power 2 (-exponent))

/-- The double nearest to `10 ^ k`. There is none from `10 ^ 309` on. -/
def tenPower? (k : Nat) : Option Double := ofDecimal? false 1 k

def raise? (x : Double) (k : Nat) : Option Double :=
  if x.significand = 0 then some x else do x.mul? (← tenPower? k)

/-- Divides by `10 ^ 308` as often as is said, or until nothing is left, and then by the power that
remains. -/
def lower? (x : Double) (remaining : Nat) : Nat → Option Double
  | 0 => do x.div? (← tenPower? remaining)
  | count + 1 =>
    if x.significand = 0 then some x
    else do lower? (← x.div? (← tenPower? 308)) remaining count

/-- The digits scaled by a power of ten. -/
def ofScaled? (negative : Bool) (digits : Nat) (scale : Int) : Option Double := do
  let x ← ofDecimal? false digits 0
  let k := scale.natAbs
  let count := (k - 1) / 308
  let y ← if 0 ≤ scale then x.raise? k else x.lower? (k - 308 * count) count
  return { y with negative }

end SeriesQuery.Double
