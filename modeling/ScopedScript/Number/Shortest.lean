import ScopedScript.Number.Decimal
namespace ScopedScript

/-!
# The shortest decimal that reads back

The numbers that round to a given positive double form an interval around it.  Among the decimals in
that interval `shortestDecimal` takes one on the coarsest grid of powers of ten that has a point
there, and of two such points the nearer.  A point exactly half way between both is decided by the
caller's `Tie`.
-/

/-- Which of two equally near neighbours is taken. -/
inductive Tie where
  | upward
  | even
  deriving DecidableEq, Repr

/-- The interval of numbers that round to `significand * 2 ^ exponent`, in quarters of
`2 ^ exponent`.  Above a power of two the lower neighbour is only half as far away.  The ends
themselves round to an even significand. -/
structure RoundingInterval where
  lower : Nat
  center : Nat
  upper : Nat
  closed : Bool

/-- The rounding interval of a positive finite double. -/
def roundingInterval (significand : Nat) (exponent : Int) : RoundingInterval :=
  let narrow := significand = Binary64.binade ∧ Binary64.leastExponent < exponent
  { lower := if narrow then 4 * significand - 1 else 4 * significand - 2
    center := 4 * significand
    upper := 4 * significand + 2
    closed := significand % 2 == 0 }

/-- The best multiple of `10 ^ power` in the rounding interval, when there is one.  Both sides of
each comparison are multiplied by the denominators of the quarter and of the grid. -/
def gridPoint? (tie : Tie) (significand : Nat) (exponent power : Int) : Option Nat :=
  let interval := roundingInterval significand exponent
  let quarter := dyadicNumerator 1 (exponent - 2) * powerOfTen (-power).toNat
  let grid := dyadicDenominator (exponent - 2) * powerOfTen power.toNat
  let inside (candidate : Nat) : Bool :=
    if interval.closed then
      interval.lower * quarter ≤ candidate * grid ∧ candidate * grid ≤ interval.upper * quarter
    else
      interval.lower * quarter < candidate * grid ∧ candidate * grid < interval.upper * quarter
  let below := interval.center * quarter / grid
  let above := below + 1
  let remainder := interval.center * quarter % grid
  let nearer :=
    if grid < 2 * remainder then above
    else if 2 * remainder < grid then below
    else match tie with
      | .upward => above
      | .even => below + below % 2
  if inside below && inside above then some nearer
  else if inside below then some below
  else if inside above then some above
  else none

/-- A power of ten with no double of the given size above it. -/
def coarsestPower (significand : Nat) (exponent : Int) : Int :=
  let numerator := dyadicNumerator significand exponent
  let denominator := dyadicDenominator exponent
  if denominator ≤ numerator then
    (Decimal.digits (numerator / denominator)).length
  else
    1 - ((Decimal.digits (denominator / numerator)).length : Int)

/-- Every digit of a dyadic number; below one, a half is five tenths. -/
def exactDecimal (significand : Nat) (exponent : Int) : Decimal :=
  if 0 ≤ exponent then ⟨significand <<< exponent.toNat, 0⟩
  else ⟨significand * Nat.pow 5 (-exponent).toNat, exponent⟩

/-- The shortest decimal that rounds to the positive double `significand * 2 ^ exponent`.  Seventeen
digits always suffice, so the search passes over the coarsest power and eighteen finer ones. -/
def shortestDecimal (tie : Tie) (significand : Nat) (exponent : Int) : Decimal :=
  let top := coarsestPower significand exponent
  let found := (List.range 19).findSome? fun (finer : Nat) =>
    (gridPoint? tie significand exponent (top - finer)).map fun coefficient =>
      Decimal.mk coefficient (top - finer)
  found.getD (exactDecimal significand exponent)

end ScopedScript
