import ScopedScript.Number.Shortest
namespace ScopedScript

/-!
# The two written forms of a double

Printed values and token listings each write numbers in a form of their own.  They agree on the shortest digits
and differ in how whole numbers are marked.
-/

namespace NumberFormat

/-- A minus sign where it is due. -/
def signed (negative : Bool) (magnitude : List Char) : List Char :=
  if negative then '-' :: magnitude else magnitude

/-- The words for numbers without digits. -/
def infinite (negative : Bool) : List Char := signed negative "inf".toList

/-- A number without digits and without sign. -/
def nan : List Char := "NaN".toList

/-- Printed values: whole numbers with every digit, others in the shortest positional form. -/
def printed (x : Float) : String :=
  String.ofList <| match Binary64.ofFloat x with
    | .nan => nan
    | .infinite negative => infinite negative
    | .finite negative significand exponent =>
      signed negative <| match wholeDyadic? significand exponent with
        | some whole => Decimal.digits whole
        | none => (shortestDecimal .upward significand exponent).positional

/-- Whole numbers from here on are listed by their shortest digits and without `.0`. -/
def listedWholeLimit : Nat := 1 <<< 63

/-- Token listings: whole numbers below the limit end in `.0` and lose the sign of zero, all others
have the shortest positional form. -/
def listed (x : Float) : String :=
  String.ofList <| match Binary64.ofFloat x with
    | .nan => nan
    | .infinite negative => infinite negative
    | .finite negative significand exponent =>
      match (wholeDyadic? significand exponent).filter (· < listedWholeLimit) with
      | some whole => signed (negative && whole != 0) (Decimal.digits whole) ++ ".0".toList
      | none => signed negative (shortestDecimal .upward significand exponent).positional

end NumberFormat

end ScopedScript
