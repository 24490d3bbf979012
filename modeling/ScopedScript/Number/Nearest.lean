import ScopedScript.Number.Binary64
namespace ScopedScript

/-!
# The double nearest to a fraction

`nearestPattern` rounds a non-negative fraction to the nearest double, the even significand winning
a tie, and saturates at infinity.  Consecutive doubles have consecutive bit patterns, so a rounded
significand that reaches the next power of two carries into the exponent by plain addition.
-/

/-- The natural number nearest to `numerator / denominator`; the even neighbour wins a tie. -/
def roundHalfEven (numerator denominator : Nat) : Nat :=
  let quotient := numerator / denominator
  let remainder := numerator % denominator
  if denominator < 2 * remainder then quotient + 1
  else if 2 * remainder < denominator then quotient
  else quotient + quotient % 2

/-- The exponent `e` with `2 ^ e ≤ numerator / denominator < 2 ^ (e + 1)`, for a positive fraction. -/
def binaryExponent (numerator denominator : Nat) : Int :=
  let estimate : Int := numerator.log2 - denominator.log2
  if numerator * dyadicDenominator estimate < dyadicNumerator denominator estimate then
    estimate - 1
  else
    estimate

/-- The bit pattern of infinity, above which no finite double lies. -/
def infinitePattern : Nat := 2047 * Binary64.binade

/-- The bit pattern of the double nearest to a non-negative fraction. -/
def nearestPattern (numerator denominator : Nat) : Nat :=
  if numerator = 0 then 0
  else
    let exponent := max (binaryExponent numerator denominator - 52) Binary64.leastExponent
    let significand := roundHalfEven (numerator * dyadicDenominator exponent)
      (dyadicNumerator denominator exponent)
    min ((exponent - Binary64.leastExponent).toNat * Binary64.binade + significand) infinitePattern

/-- The double nearest to a non-negative fraction. -/
def nearestFloat (numerator denominator : Nat) : Float :=
  Float.ofBits (UInt64.ofNat (nearestPattern numerator denominator))

end ScopedScript
