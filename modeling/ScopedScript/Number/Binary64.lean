namespace ScopedScript

/-!
# Doubles as dyadic numbers

A finite double is a sign together with a natural number times a power of two.  All number text in
this library is decided on that view, in exact natural-number arithmetic; the bit layout is read
here and nowhere else.
-/

/-- What a double stands for. -/
inductive Binary64 where
  | nan
  | infinite (negative : Bool)
  /-- The number `significand * 2 ^ exponent`, negated when `negative` holds. -/
  | finite (negative : Bool) (significand : Nat) (exponent : Int)
  deriving DecidableEq, Repr

namespace Binary64

/-- The number of values between two consecutive powers of two. -/
def binade : Nat := 1 <<< 52

/-- The exponent shared by all subnormal doubles, which is the least one. -/
def leastExponent : Int := -1074

/-- Read a bit pattern: one sign bit, eleven exponent bits, fifty-two fraction bits. -/
def ofPattern (bits : Nat) : Binary64 :=
  let negative := bits >>> 63 % 2 == 1
  let biased := bits / binade % 2048
  let fraction := bits % binade
  if biased = 2047 then
    if fraction = 0 then .infinite negative else .nan
  else if biased = 0 then
    .finite negative fraction leastExponent
  else
    .finite negative (binade + fraction) (biased - 1075)

/-- The view of a double. -/
def ofFloat (x : Float) : Binary64 := ofPattern x.toBits.toNat

end Binary64

/-- The numerator of `significand * 2 ^ exponent` over `dyadicDenominator exponent`. -/
def dyadicNumerator (significand : Nat) (exponent : Int) : Nat :=
  significand <<< exponent.toNat

/-- One for whole powers of two, and the power itself below one. -/
def dyadicDenominator (exponent : Int) : Nat :=
  1 <<< (-exponent).toNat

/-- The natural number equal to `significand * 2 ^ exponent`, when there is one. -/
def wholeDyadic? (significand : Nat) (exponent : Int) : Option Nat :=
  let numerator := dyadicNumerator significand exponent
  let denominator := dyadicDenominator exponent
  if numerator % denominator = 0 then some (numerator / denominator) else none

end ScopedScript
