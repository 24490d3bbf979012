import ScopedScript.Number.Nearest
namespace ScopedScript

/-!
# Decimal numbers and their digits

A `Decimal` is a natural number times a power of ten.  It is what a numeral in a source text denotes
and what the shortest form of a double is made of; `positional` writes it without an exponent and
`scientific` with one.
-/

/-- The number `coefficient * 10 ^ exponent`. -/
structure Decimal where
  coefficient : Nat
  exponent : Int
  deriving DecidableEq, Repr

/-- A power of ten. -/
def powerOfTen (exponent : Nat) : Nat := Nat.pow 10 exponent

namespace Decimal

/-- The digits of a natural number, most significant first. -/
def digits (n : Nat) : List Char := Nat.toDigits 10 n

/-- The natural number that a list of digits denotes. -/
def ofDigits (ds : List Char) : Nat :=
  ds.foldl (fun value digit => 10 * value + (digit.toNat - '0'.toNat)) 0

/-- The decimal that a numeral `digits` or `digits.digits` denotes. -/
def ofNumeral (numeral : List Char) : Decimal :=
  let whole := numeral.takeWhile Char.isDigit
  let fraction := (numeral.dropWhile Char.isDigit).drop 1
  ⟨ofDigits (whole ++ fraction), -fraction.length⟩

/-- The double nearest to a decimal. -/
def toFloat (d : Decimal) : Float :=
  nearestFloat (d.coefficient * powerOfTen d.exponent.toNat) (powerOfTen (-d.exponent).toNat)

/-- All digits around a decimal point, and no point when nothing stands behind it. -/
def positional (d : Decimal) : List Char :=
  let ds := digits d.coefficient
  let places := (-d.exponent).toNat
  if places = 0 then
    ds ++ List.replicate d.exponent.toNat '0'
  else if places < ds.length then
    ds.take (ds.length - places) ++ '.' :: ds.drop (ds.length - places)
  else
    '0' :: '.' :: List.replicate (places - ds.length) '0' ++ ds

/-- The power of ten of the leading digit. -/
def magnitude (d : Decimal) : Int := (digits d.coefficient).length - 1 + d.exponent

/-- One digit before the point, the others behind it, and the signed power of ten. -/
def scientific (d : Decimal) : List Char :=
  let power := d.magnitude
  let sign := if power < 0 then '-' else '+'
  let mantissa := match digits d.coefficient with
    | leading :: [] => [leading]
    | leading :: others => leading :: '.' :: others
    | [] => []
  mantissa ++ 'e' :: sign :: digits power.natAbs

end Decimal

end ScopedScript
