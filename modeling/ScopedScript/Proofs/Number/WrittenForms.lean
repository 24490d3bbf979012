import ScopedScript.Number.Format
import ScopedScript.Proofs.Number.Digits
import ScopedScript.Proofs.Number.Intervals
namespace ScopedScript

/-!
# Written numbers are read as themselves

Whatever form a finite double is written in, what stands behind the sign is a numeral, and the number that
it denotes lies in the rounding interval of the double.  So the numeral is read as this double, without its
sign.

A whole number below `2 ^ 63` is listed as the digits of a sixty-four bit integer.  The conversion to such an
integer cuts off the fraction and stops at the ends of the range, but whole numbers in the range lose nothing.
-/

section Whole

variable {significand : Nat} {exponent : Int}

theorem dyadic_div_eq (significand : Nat) (exponent : Int) :
    ((dyadicNumerator significand exponent : Nat) : ℚ) / (dyadicDenominator exponent : Nat) =
      significand * 2 ^ exponent := by
  rw [dyadicNumerator_eq, dyadicDenominator_eq, ← toNat_pow_div exponent two_ne_zero]
  push_cast
  rw [mul_div_assoc]

/-- The whole number that a dyadic number equals is the quotient of its two parts. -/
theorem wholeDyadic?_eq_some {whole : Nat} :
    wholeDyadic? significand exponent = some whole ↔ (significand * 2 ^ exponent : ℚ) = whole := by
  have positive : 0 < dyadicDenominator exponent := by
    rw [dyadicDenominator_eq]
    positivity
  rw [← dyadic_div_eq, div_eq_iff (by positivity), wholeDyadic?]
  split_ifs with divides
  · rw [Option.some_inj]
    constructor
    · rintro rfl
      exact_mod_cast (Nat.div_mul_cancel (Nat.dvd_of_mod_eq_zero divides)).symm
    · intro equal
      exact Nat.div_eq_of_eq_mul_left positive (by exact_mod_cast equal)
  · refine ⟨nofun, fun equal => absurd ?_ divides⟩
    have multiple : dyadicNumerator significand exponent = whole * dyadicDenominator exponent := by
      exact_mod_cast equal
    rw [multiple, Nat.mul_mod_left]

end Whole

/-- A zero behind the point changes nothing. -/
theorem numeral_point_zero {row : List Char} (written : row ≠ []) (digits : ∀ c ∈ row, c.isDigit) :
    Numeral (row ++ ".0".toList) (rowValue row) := by
  have numeral := Numeral.fraction written digits (List.cons_ne_nil '0' [])
    (List.forall_mem_singleton.mpr rfl)
  have nothing : (rowValue ['0'] : ℚ) / 10 ^ ['0'].length = 0 := by simp [rowValue]
  rwa [nothing, add_zero] at numeral

/-- The text is a numeral for a number in the rounding interval of `significand * 2 ^ exponent`. -/
def Denotes (text : List Char) (significand : Nat) (exponent : Int) : Prop :=
  ∃ q, Numeral text q ∧ RoundsTo q significand exponent

/-- A numeral for a number in the rounding interval of a double is read as this double. -/
theorem Denotes.toFloat_eq {text : List Char} {x : Float} {significand : Nat} {exponent : Int}
    (denotes : Denotes text significand exponent)
    (view : Binary64.ofFloat x = .finite false significand exponent) :
    (Decimal.ofNumeral text).toFloat = x := by
  obtain ⟨q, numeral, rounds⟩ := denotes
  exact numeral.isNearest.unique (Binary64.isNearest_of_roundsTo view rounds)

namespace NumberFormat

variable {x : Float} {negative : Bool} {significand : Nat} {exponent : Int}

/-- The digits of a whole number denote it. -/
theorem denotes_digits {whole : Nat} (found : wholeDyadic? significand exponent = some whole) :
    Denotes (Decimal.digits whole) significand exponent := by
  refine ⟨whole, Decimal.numeral_digits whole, ?_⟩
  rw [← wholeDyadic?_eq_some.mp found]
  exact roundsTo_exact significand exponent

/-- So they do with a zero behind the point. -/
theorem denotes_digits_point_zero {whole : Nat} (found : wholeDyadic? significand exponent = some whole) :
    Denotes (Decimal.digits whole ++ ".0".toList) significand exponent := by
  have numeral := numeral_point_zero (Decimal.digits_ne_nil whole) fun _ => Decimal.isDigit_of_mem_digits whole
  rw [Decimal.rowValue_digits] at numeral
  refine ⟨whole, numeral, ?_⟩
  rw [← wholeDyadic?_eq_some.mp found]
  exact roundsTo_exact significand exponent

/-- The shortest decimal without an exponent denotes a number in the interval. -/
theorem denotes_positional (tie : Tie) (significand : Nat) (exponent : Int) :
    Denotes (shortestDecimal tie significand exponent).positional significand exponent :=
  ⟨_, Decimal.numeral_positional _, roundsTo_shortestDecimal tie significand exponent⟩

/-- Behind its sign, a printed double is a numeral that is read as this double. -/
theorem exists_printed (view : Binary64.ofFloat x = .finite negative significand exponent) :
    ∃ text, (printed x).toList = signed negative text ∧ Denotes text significand exponent := by
  unfold printed
  rw [String.toList_ofList, view]
  dsimp only
  cases found : wholeDyadic? significand exponent with
  | some whole => exact ⟨_, rfl, denotes_digits found⟩
  | none => exact ⟨_, rfl, denotes_positional .upward significand exponent⟩

/-- A listed double without a sign is a numeral that is read as this double. -/
theorem denotes_listed (view : Binary64.ofFloat x = .finite false significand exponent) :
    Denotes (listed x).toList significand exponent := by
  unfold listed
  rw [String.toList_ofList, view]
  dsimp only
  cases found : (wholeDyadic? significand exponent).filter (· < listedWholeLimit) with
  | some whole =>
      obtain ⟨found, -⟩ := Option.filter_eq_some_iff.mp found
      exact denotes_digits_point_zero found
  | none => exact denotes_positional .upward significand exponent

end NumberFormat

/-! ## Whole numbers as integers of sixty-four bits -/

namespace Binary64

/-- The integer of sixty-four bits that a double is converted to: without the fraction, and at the nearer end
of the range where it lies beyond. -/
def toInt64 : Binary64 → Int64
  | nan => 0
  | infinite negative => if negative then Int64.minValue else Int64.maxValue
  | finite negative significand exponent =>
    let whole : Nat := dyadicNumerator significand exponent / dyadicDenominator exponent
    Int64.ofIntClamp (if negative then -whole else whole)

variable {view : Binary64} {k : ℤ}

/-- A whole number that is small enough comes from a whole dyadic number. -/
theorem exists_whole (worth : worth? view = some (k : ℚ)) (small : |k| < 2 ^ 63) :
    ∃ negative significand exponent, view = finite negative significand exponent ∧
      wholeDyadic? significand exponent = some k.natAbs ∧ k = if negative then -(k.natAbs : ℤ) else k.natAbs := by
  cases view with
  | nan => cases worth
  | infinite negative =>
      have far : |(k : ℚ)| = limit := by
        rw [← Option.some.inj worth]
        exact abs_signed negative (by rw [limit]; positivity)
      have near : |(k : ℚ)| < 2 ^ 63 := by exact_mod_cast small
      rw [far, limit] at near
      exact absurd near (not_lt.mpr (pow_le_pow_right₀ one_le_two (by norm_num)))
  | finite negative significand exponent =>
      have value : signed negative (significand * 2 ^ exponent) = k := Option.some.inj worth
      have nonneg : (0 : ℚ) ≤ significand * 2 ^ exponent := by positivity
      have size : (significand * 2 ^ exponent : ℚ) = k.natAbs := by
        rw [← abs_signed negative nonneg, value, Nat.cast_natAbs, Int.cast_abs]
      refine ⟨negative, significand, exponent, rfl, wholeDyadic?_eq_some.mpr size, ?_⟩
      rw [size, signed] at value
      generalize k.natAbs = n at value ⊢
      split_ifs at value ⊢
      · exact_mod_cast value.symm
      · exact_mod_cast value.symm

/-- Whole numbers in the range are converted without loss. -/
theorem toInt_toInt64 (worth : worth? view = some (k : ℚ)) (small : |k| < 2 ^ 63) : view.toInt64.toInt = k := by
  obtain ⟨negative, significand, exponent, rfl, found, sign⟩ := exists_whole worth small
  have quotient : dyadicNumerator significand exponent / dyadicDenominator exponent = k.natAbs := by
    unfold wholeDyadic? at found
    dsimp only at found
    split_ifs at found
    exact Option.some.inj found
  have least : Int64.minValue.toInt = -2 ^ 63 := rfl
  have greatest : Int64.maxValue.toInt = 2 ^ 63 - 1 := rfl
  obtain ⟨above, below⟩ := abs_lt.mp small
  rw [toInt64, quotient, ← sign]
  exact Int64.toInt_ofIntClamp (by rw [least]; exact above.le) (by rw [greatest]; exact Int.le_sub_one_of_lt below)

end Binary64

/-- An integer is written as its sign and its digits. -/
theorem toList_toString_int (k : ℤ) :
    (toString k).toList = NumberFormat.signed (decide (k < 0)) (Decimal.digits k.natAbs) := by
  cases k with
  | ofNat n => exact Nat.toList_repr
  | negSucc n =>
      have text : toString (Int.negSucc n) = "-" ++ Nat.repr n.succ := rfl
      have minus : "-".toList = ['-'] := by decide
      rw [text, String.toList_append, Nat.toList_repr, decide_eq_true (Int.negSucc_lt_zero n),
        Int.natAbs_negSucc, minus]
      rfl

/-- Whole numbers in the range are listed as the integer that they are converted to. -/
theorem NumberFormat.listed_eq_toInt64 {x : Float} {k : ℤ} (worth : (Binary64.ofFloat x).worth? = some (k : ℚ))
    (small : |k| < 2 ^ 63) : listed x = toString (Binary64.ofFloat x).toInt64.toInt ++ ".0" := by
  rw [Binary64.toInt_toInt64 worth small]
  obtain ⟨negative, significand, exponent, view, found, sign⟩ := Binary64.exists_whole worth small
  have below : k.natAbs < listedWholeLimit := by
    rw [listedWholeLimit, Nat.one_shiftLeft]
    exact_mod_cast (Int.abs_eq_natAbs k ▸ small)
  have within : (wholeDyadic? significand exponent).filter (· < listedWholeLimit) = some k.natAbs :=
    Option.filter_eq_some_iff.mpr ⟨found, decide_eq_true below⟩
  have signs : (negative && k.natAbs != 0) = decide (k < 0) := by
    cases negative with
    | false =>
        rw [if_neg Bool.false_ne_true] at sign
        rw [Bool.false_and, eq_comm, decide_eq_false_iff_not]
        omega
    | true =>
        rw [if_pos rfl] at sign
        rw [Bool.true_and, Bool.eq_iff_iff, bne_iff_ne, decide_eq_true_iff]
        omega
  rw [← String.toList_inj, String.toList_append, toList_toString_int, listed, String.toList_ofList, view]
  dsimp only
  rw [within, ← signs]

end ScopedScript
