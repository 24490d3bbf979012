import ScopedScript.Number.Decimal
import ScopedScript.Proofs.Number.Rounding
namespace ScopedScript

/-!
# What a numeral denotes

A numeral is a row of digits, or two rows with a point between them.  It denotes a rational number, of which
the digits behind the point are the fraction.  The double that a numeral is read as is the one nearest to
that number.
-/

/-- The natural number that a row of digits denotes. -/
def rowValue (digits : List Char) : Nat :=
  Nat.ofDigits 10 (digits.map fun digit => digit.toNat - '0'.toNat).reverse

/-- The text is a numeral for the number. -/
inductive Numeral : List Char → ℚ → Prop where
  | whole {digits : List Char} (written : digits ≠ []) (row : ∀ c ∈ digits, c.isDigit) :
      Numeral digits (rowValue digits)
  | fraction {digits behind : List Char} (written : digits ≠ []) (row : ∀ c ∈ digits, c.isDigit)
      (writtenBehind : behind ≠ []) (rowBehind : ∀ c ∈ behind, c.isDigit) :
      Numeral (digits ++ '.' :: behind) (rowValue digits + rowValue behind / 10 ^ behind.length)

theorem rowValue_append (digits more : List Char) :
    rowValue (digits ++ more) = rowValue digits * 10 ^ more.length + rowValue more := by
  rw [rowValue, List.map_append, List.reverse_append, Nat.ofDigits_append, List.length_reverse,
    List.length_map, Nat.add_comm, Nat.mul_comm]
  rfl

namespace Decimal

theorem ofDigits_eq (digits : List Char) : ofDigits digits = rowValue digits := by
  induction digits using List.reverseRecOn with
  | nil => rfl
  | append_singleton digits last inductionHypothesis =>
      rw [rowValue_append, ← inductionHypothesis, ofDigits, List.foldl_append, List.length_singleton,
        pow_one, Nat.mul_comm]
      simp [ofDigits, rowValue]

/-- What stands in front of the point, and behind it. -/
theorem ofNumeral_eq {digits : List Char} (row : ∀ c ∈ digits, c.isDigit) (behind : List Char)
    (point : ∀ c ∈ behind.head?, c = '.') :
    ofNumeral (digits ++ behind) = ⟨rowValue (digits ++ behind.drop 1), -(behind.drop 1).length⟩ := by
  have ends : behind.takeWhile Char.isDigit = [] ∧ behind.dropWhile Char.isDigit = behind := by
    cases behind with
    | nil => exact ⟨rfl, rfl⟩
    | cons first rest =>
        obtain rfl := point first rfl
        exact ⟨rfl, rfl⟩
  rw [ofNumeral, List.takeWhile_append_of_pos row, List.dropWhile_append_of_pos row, ends.1, ends.2,
    List.append_nil, ofDigits_eq]

/-- The number that a decimal denotes. -/
def value (d : Decimal) : ℚ := d.coefficient * 10 ^ d.exponent

/-- A decimal is read as the nearest double. -/
theorem isNearest_toFloat (d : Decimal) : Binary64.IsNearest d.toFloat d.value := by
  have nearest := Binary64.isNearest_nearestFloat (d.coefficient * 10 ^ d.exponent.toNat)
    (10 ^ (-d.exponent).toNat) (by positivity)
  push_cast at nearest
  rwa [mul_div_assoc, toNat_pow_div d.exponent (by norm_num)] at nearest

end Decimal

/-- A numeral denotes the same number as the decimal that is made of it. -/
theorem Numeral.value_eq {text : List Char} {q : ℚ} (numeral : Numeral text q) :
    (Decimal.ofNumeral text).value = q := by
  cases numeral with
  | whole written row =>
      have parts := Decimal.ofNumeral_eq row [] nofun
      rw [List.append_nil, List.drop_nil, List.append_nil] at parts
      simp [parts, Decimal.value]
  | @fraction digits behind written row writtenBehind rowBehind =>
      have parts := Decimal.ofNumeral_eq row ('.' :: behind)
        (fun _ isHead => (Option.some.inj isHead).symm)
      rw [List.drop_one, List.tail_cons, rowValue_append] at parts
      rw [parts, Decimal.value]
      push_cast
      rw [zpow_neg, zpow_natCast]
      field_simp

/-- A numeral is read as the double nearest to what it denotes. -/
theorem Numeral.isNearest {text : List Char} {q : ℚ} (numeral : Numeral text q) :
    Binary64.IsNearest (Decimal.ofNumeral text).toFloat q := by
  have nearest := Decimal.isNearest_toFloat (Decimal.ofNumeral text)
  rwa [numeral.value_eq] at nearest

end ScopedScript
