import ScopedScript.Proofs.Listing.JsonRows
import ScopedScript.Proofs.Number.WrittenForms
import ScopedScript.Text.CompactJson
namespace ScopedScript

/-!
# Compact JSON is JSON

The compact writer is a writer of JSON.  Quoted text is the text of a string with the same characters, and the written
form of a finite double is the text of a number that is read as this double.  A number keeps its digits in both forms:
with a power of ten behind it, and without one.
-/

namespace Json

/-! ## Strings -/

theorem numbered?_hexByte : ∀ n < 0x20,
    numbered? '0' '0' (CompactJson.hexDigit (n / 16)) (CompactJson.hexDigit (n % 16)) = some (Char.ofNat n) := by
  decide

/-- An escaped character is written as it may be. -/
theorem isWritten_escape (c : Char) : IsWritten c (CompactJson.escape c) := by
  unfold CompactJson.escape
  split_ifs with quote backslash backspace formFeed newline carriageReturn tab control
  · exact .short (by rw [quote]; rfl)
  · exact .short (by rw [backslash]; rfl)
  · exact .short (by rw [backspace]; rfl)
  · exact .short (by rw [formFeed]; rfl)
  · exact .short (by rw [newline]; rfl)
  · exact .short (by rw [carriageReturn]; rfl)
  · exact .short (by rw [tab]; rfl)
  · refine .numbered ?_
    rw [numbered?_hexByte c.toNat control, Char.ofNat_toNat]
  · exact .plain (Nat.not_lt.mp control) quote backslash

theorem isContents_escapeAll (characters : List Char) :
    IsContents characters (CompactJson.escapeAll characters) := by
  induction characters with
  | nil => exact .done
  | cons c characters inductionHypothesis => exact .next (isWritten_escape c) inductionHypothesis

/-- Quoted text is the text of a string. -/
theorem isString_quote (text : String) : IsString text.toList (CompactJson.quote text).toList := by
  rw [CompactJson.quote, String.toList_ofList]
  exact .quoted (isContents_escapeAll text.toList)

/-! ## Numbers -/

theorem IsNumber.of_parts {whole digits fraction exponent : List Char} {power : ℤ} {d : Decimal}
    (trimmed : IsTrimmed whole) (isFraction : IsFraction digits fraction) (isPower : IsPower power exponent)
    (coefficient : rowValue (whole ++ digits) = d.coefficient) (places : power - digits.length = d.exponent) :
    IsNumber false d (whole ++ (fraction ++ exponent)) := by
  have number := IsNumber.number false trimmed isFraction isPower
  rwa [coefficient, places] at number

/-- A power of ten with its sign and its digits. -/
theorem isPower_digits (power : ℤ) :
    IsPower power ('e' :: (if power < 0 then '-' else '+') :: Decimal.digits power.natAbs) := by
  have written : Decimal.digits power.natAbs ≠ [] := Decimal.digits_ne_nil _
  have digits : ∀ c ∈ Decimal.digits power.natAbs, c.isDigit := fun _ => Decimal.isDigit_of_mem_digits _
  have size : rowValue (Decimal.digits power.natAbs) = power.natAbs := Decimal.rowValue_digits _
  by_cases below : power < 0
  · have isPower := IsPower.power (.inl rfl) .minus written digits
    rw [if_pos rfl, size, Int.ofNat_natAbs_of_nonpos below.le, neg_neg] at isPower
    rwa [if_pos below]
  · have isPower := IsPower.power (.inl rfl) .plus written digits
    rw [if_neg Bool.false_ne_true, size, Int.natAbs_of_nonneg (not_lt.mp below)] at isPower
    rwa [if_neg below]

/-- A decimal with a power of ten is the text of this decimal. -/
theorem isNumber_scientific (d : Decimal) : IsNumber false d d.scientific := by
  have row : ∀ c ∈ Decimal.digits d.coefficient, c.isDigit := fun _ => Decimal.isDigit_of_mem_digits _
  have value : rowValue (Decimal.digits d.coefficient) = d.coefficient := Decimal.rowValue_digits _
  have isPower := isPower_digits d.magnitude
  have magnitude : d.magnitude = (Decimal.digits d.coefficient).length - 1 + d.exponent := rfl
  rcases List.exists_cons_of_ne_nil (Decimal.digits_ne_nil d.coefficient) with ⟨leading, others, parts⟩
  rw [Decimal.scientific]
  rw [parts] at row value magnitude ⊢
  rcases List.forall_mem_cons.mp row with ⟨isDigit, rowBehind⟩
  have trimmed := isTrimmed_singleton isDigit
  rw [List.length_cons] at magnitude
  cases others with
  | nil => exact .of_parts trimmed .none isPower value (by simp [magnitude])
  | cons second others =>
      refine .of_parts trimmed (.digits (List.cons_ne_nil second others) rowBehind) isPower value ?_
      rw [magnitude, List.length_cons]
      push_cast
      ring

/-- A decimal with digits behind the point is the text of this decimal. -/
theorem isNumber_positional {d : Decimal} (fractional : d.exponent < 0) : IsNumber false d d.positional := by
  rcases d.positional_cases with ⟨whole, -⟩ | ⟨front, behind, places, written, trimmed, row, value, text⟩
  · exact absurd whole (not_le.mpr fractional)
  · have number := IsNumber.of_parts (d := d) trimmed (.digits written (List.forall_mem_append.mp row).2) .none value
      (by rw [places, zero_sub])
    rwa [List.append_nil, ← text] at number

/-- A zero behind the point makes the text of the same number out of a row of digits. -/
theorem isNumber_point_zero {row : List Char} (trimmed : IsTrimmed row) :
    ∃ d, IsNumber false d (row ++ ".0".toList) ∧ d.value = rowValue row := by
  refine ⟨⟨rowValue (row ++ ['0']), -1⟩, ?_, ?_⟩
  · exact .of_parts trimmed (.digits (List.cons_ne_nil '0' []) (List.forall_mem_singleton.mpr rfl)) .none rfl rfl
  · rw [rowValue_append, Decimal.value]
    simp [rowValue]

/-- A whole decimal without an exponent is the text of the same number with a zero behind the point. -/
theorem isNumber_positional_point_zero {d : Decimal} (positive : 0 < d.coefficient) (whole : 0 ≤ d.exponent) :
    ∃ other, IsNumber false other (d.positional ++ ".0".toList) ∧ other.value = d.value := by
  rcases d.positional_cases with ⟨-, text⟩ | ⟨_, behind, places, written, -⟩
  · rw [text, Decimal.value_whole whole]
    exact isNumber_point_zero (Decimal.isTrimmed_digits_append positive fun _ => isDigit_of_mem_zeros)
  · have some : 0 < behind.length := List.length_pos_iff.mpr written
    omega

/-- A whole number is written as itself. -/
theorem isScalar_natural (value : Nat) : IsScalar (.number false ⟨value, 0⟩) (toString value).toList := by
  refine .number ?_
  have number := IsNumber.of_parts (d := ⟨value, 0⟩) (Decimal.isTrimmed_digits value) .none .none
    (by rw [List.append_nil, Decimal.rowValue_digits]) rfl
  have text : (toString value).toList = Decimal.digits value := Nat.toList_repr
  rwa [List.append_nil, List.append_nil, ← text] at number

/-- The decimal of a positive double has a digit that is no zero. -/
theorem coefficient_pos {d : Decimal} {significand : Nat} {exponent : Int}
    (rounds : RoundsTo d.value significand exponent) (positive : significand ≠ 0) : 0 < d.coefficient := by
  have least : 0 < (roundingInterval significand exponent).lower := by
    rw [roundingInterval]
    dsimp only
    split_ifs <;> omega
  have above : 0 < d.value := lt_of_lt_of_le (by positivity) rounds.atLeast
  by_contra zero
  rw [Decimal.value, Nat.eq_zero_of_not_pos zero, Nat.cast_zero, zero_mul] at above
  exact absurd above (lt_irrefl 0)

/-- A number has a text with either sign. -/
theorem IsNumber.signed {d : Decimal} {text : List Char} (isNumber : IsNumber false d text) (negative : Bool) :
    IsNumber negative d (NumberFormat.signed negative text) := by
  cases isNumber with
  | number _ trimmed isFraction isPower => exact .number negative trimmed isFraction isPower

/-- The digits of a finite double without its sign, as the compact writer writes them. -/
theorem isNumber_shortest (significand : Nat) (exponent : Int) :
    ∃ d, RoundsTo d.value significand exponent ∧ IsNumber false d
      (if significand = 0 then "0.0".toList
      else
        let shortest := shortestDecimal .even significand exponent
        if CompactJson.isPositional shortest.magnitude then
          if 0 ≤ shortest.exponent then shortest.positional ++ ".0".toList else shortest.positional
        else shortest.scientific) := by
  have rounds := roundsTo_shortestDecimal .even significand exponent
  dsimp only
  split_ifs with zero positional whole
  · rcases isNumber_point_zero .zero with ⟨d, isNumber, value⟩
    have exact := roundsTo_exact 0 exponent
    have nothing : (rowValue ['0'] : ℚ) = (0 : Nat) * 2 ^ exponent := by simp [rowValue]
    rw [← nothing, ← value] at exact
    rw [zero]
    exact ⟨d, exact, isNumber⟩
  · rcases isNumber_positional_point_zero (coefficient_pos rounds zero) whole with ⟨d, isNumber, value⟩
    rw [← value] at rounds
    exact ⟨d, rounds, isNumber⟩
  · exact ⟨_, rounds, isNumber_positional (not_le.mp whole)⟩
  · exact ⟨_, rounds, isNumber_scientific _⟩

/-- The written form of a finite double is the text of a number that is read as this double. -/
theorem isNumber_number {x : Float} {negative : Bool} {significand : Nat} {exponent : Int}
    (view : Binary64.ofFloat x = .finite negative significand exponent) :
    ∃ d, IsNumber negative d (CompactJson.number x).toList ∧
      (if negative then -d.toFloat else d.toFloat) = x := by
  rcases isNumber_shortest significand exponent with ⟨d, rounds, isNumber⟩
  refine ⟨d, ?_, ?_⟩
  · rw [CompactJson.number, String.toList_ofList, view]
    exact isNumber.signed negative
  · have nearest := d.isNearest_toFloat
    cases negative with
    | false => exact nearest.unique (Binary64.isNearest_of_roundsTo view rounds)
    | true =>
        have other := Binary64.isNearest_of_roundsTo (Binary64.ofFloat_neg view) rounds
        rw [if_pos rfl, nearest.unique other]
        exact Binary64.neg_neg_of_isFinite (Binary64.isFinite_of_ofFloat view)

/-! ## Objects -/

/-- The value of a field is written as a scalar that stands for it. -/
theorem exists_scalar (value : FieldValue) :
    ∃ scalar, Writes value scalar ∧ IsScalar scalar (CompactJson.value value).toList := by
  cases value with
  | text text => exact ⟨_, .text text, .text (isString_quote text)⟩
  | natural value => exact ⟨_, .natural value, isScalar_natural value⟩
  | number x =>
      cases finite : x.isFinite with
      | true =>
          rcases Binary64.exists_finite finite with ⟨negative, significand, exponent, view⟩
          rcases isNumber_number view with ⟨d, isNumber, reads⟩
          exact ⟨_, .number finite reads, .number isNumber⟩
      | false =>
          have text : (CompactJson.number x).toList = ['n', 'u', 'l', 'l'] := by
            rw [CompactJson.number, String.toList_ofList]
            cases view : Binary64.ofFloat x with
            | nan => rfl
            | infinite negative => rfl
            | finite =>
                rw [Binary64.isFinite_of_ofFloat view] at finite
                cases finite
          refine ⟨.null, .notFinite finite, ?_⟩
          rw [CompactJson.value, text]
          exact .null

/-- A field is written as a member that stands for it. -/
theorem exists_member (field : Field) :
    ∃ member, StandsFor field member ∧ IsMember member (CompactJson.member field).toList := by
  rcases exists_scalar field.value with ⟨scalar, writes, isScalar⟩
  refine ⟨(field.name, scalar), ⟨rfl, writes⟩, ?_⟩
  have text : (CompactJson.member field).toList =
      (CompactJson.quote field.name).toList ++ ':' :: (CompactJson.value field.value).toList := by
    rw [CompactJson.member, String.toList_append, String.toList_append, List.append_assoc]
    rfl
  rw [text]
  exact .member (isString_quote field.name) isScalar

/-- Fields with commas between them are written as members that stand for them. -/
theorem exists_members (first : Field) (others : List Field) :
    ∃ members, List.Forall₂ StandsFor (first :: others) members ∧
      IsMembers members (",".intercalate ((first :: others).map CompactJson.member)).toList := by
  induction others generalizing first with
  | nil =>
      rcases exists_member first with ⟨member, stands, isMember⟩
      exact ⟨[member], .cons stands .nil, .last isMember⟩
  | cons second others inductionHypothesis =>
      rcases exists_member first with ⟨member, stands, isMember⟩
      rcases inductionHypothesis second with ⟨members, stand, areMembers⟩
      refine ⟨member :: members, .cons stands stand, ?_⟩
      rw [List.map_cons, List.map_cons, String.intercalate_cons_cons, String.toList_append, String.toList_append,
        List.append_assoc]
      exact .next isMember areMembers

end Json

/-- The compact writer is a writer of JSON. -/
theorem CompactJson.isJson_write : CompactJson.write.IsJson := by
  intro record written
  rcases List.exists_cons_of_ne_nil written with ⟨first, others, rfl⟩
  rcases Json.exists_members first others with ⟨members, stand, areMembers⟩
  refine ⟨_, members, rfl, ?_, stand⟩
  rw [String.toList_append, String.toList_append]
  exact .object areMembers

end ScopedScript
