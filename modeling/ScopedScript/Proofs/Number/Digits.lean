import ScopedScript.Proofs.Number.Numerals
namespace ScopedScript

/-!
# Decimals in digits

Written without an exponent, a decimal is a numeral for the number that it denotes: zeros that are put behind
its digits are powers of ten, and zeros in front of them change nothing.  In front of the point stands no zero
that could be left out.
-/

theorem rowValue_zeros (count : Nat) : rowValue (List.replicate count '0') = 0 := by
  induction count with
  | zero => rfl
  | succ count inductionHypothesis =>
      rw [List.replicate_succ', rowValue_append, inductionHypothesis, Nat.zero_mul]
      rfl

theorem isDigit_of_mem_zeros {count : Nat} {c : Char} (member : c ∈ List.replicate count '0') : c.isDigit := by
  rw [List.eq_of_mem_replicate member]
  rfl

/-- A row of digits without a zero in front that could be left out. -/
inductive IsTrimmed : List Char → Prop where
  | zero : IsTrimmed ['0']
  | row {first : Char} {rest : List Char} (nonzero : first ≠ '0') (digits : ∀ c ∈ first :: rest, c.isDigit) :
      IsTrimmed (first :: rest)

theorem IsTrimmed.ne_nil {row : List Char} (trimmed : IsTrimmed row) : row ≠ [] := by
  cases trimmed with
  | zero => exact List.cons_ne_nil _ _
  | row => exact List.cons_ne_nil _ _

theorem IsTrimmed.isDigit {row : List Char} (trimmed : IsTrimmed row) : ∀ c ∈ row, c.isDigit := by
  cases trimmed with
  | zero => exact List.forall_mem_singleton.mpr rfl
  | row nonzero digits => exact digits

/-- One digit alone is trimmed. -/
theorem isTrimmed_singleton {c : Char} (isDigit : c.isDigit) : IsTrimmed [c] := by
  by_cases isZero : c = '0'
  · rw [isZero]
    exact .zero
  · exact .row isZero (List.forall_mem_singleton.mpr isDigit)

namespace Decimal

section Digits

variable (n : Nat)

theorem digits_ne_nil : digits n ≠ [] := Nat.toDigits_ne_nil

theorem isDigit_of_mem_digits {c : Char} (member : c ∈ digits n) : c.isDigit :=
  Nat.isDigit_of_mem_toDigits (by norm_num) le_rfl member

/-- The digits of a number denote it. -/
theorem rowValue_digits : rowValue (digits n) = n := by
  rw [← ofDigits_eq]
  exact Nat.ofDigitChars_ten_toDigits

/-- The digits of a number are a numeral for it. -/
theorem numeral_digits : Numeral (digits n) n := by
  have numeral : Numeral (digits n) (rowValue (digits n)) :=
    .whole (digits_ne_nil n) fun _ member => isDigit_of_mem_digits n member
  rwa [rowValue_digits] at numeral

/-- The first digit of a positive number is no zero. -/
theorem exists_digits {n : Nat} (positive : 0 < n) : ∃ first rest, digits n = first :: rest ∧ first ≠ '0' := by
  induction n using Nat.strongRecOn with
  | ind n inductionHypothesis =>
      rcases Nat.lt_or_ge n 10 with small | large
      · refine ⟨n.digitChar, [], Nat.toDigits_of_lt_base small, ?_⟩
        interval_cases n <;> decide
      · obtain ⟨first, rest, row, nonzero⟩ := inductionHypothesis (n / 10) (by omega) (by omega)
        refine ⟨first, rest ++ [(n % 10).digitChar], ?_, nonzero⟩
        rw [digits] at row ⊢
        rw [Nat.toDigits_of_base_le (by norm_num) large, row, List.cons_append]

/-- The digits of a positive number are trimmed, whatever digits stand behind them. -/
theorem isTrimmed_digits_append {n : Nat} (positive : 0 < n) {more : List Char} (row : ∀ c ∈ more, c.isDigit) :
    IsTrimmed (digits n ++ more) := by
  have both : ∀ c ∈ digits n ++ more, c.isDigit :=
    List.forall_mem_append.mpr ⟨fun _ => isDigit_of_mem_digits n, row⟩
  obtain ⟨first, rest, parts, nonzero⟩ := exists_digits positive
  rw [parts] at both ⊢
  exact .row nonzero both

/-- So is every row of digits that they begin with. -/
theorem isTrimmed_take_digits {n count : Nat} (positive : 0 < n) (some : 0 < count) :
    IsTrimmed ((digits n).take count) := by
  have row : ∀ c ∈ (digits n).take count, c.isDigit :=
    fun _ member => isDigit_of_mem_digits n (List.mem_of_mem_take member)
  obtain ⟨first, rest, parts, nonzero⟩ := exists_digits positive
  obtain ⟨fewer, rfl⟩ := Nat.exists_eq_add_of_le' some
  rw [parts, List.take_succ_cons] at row ⊢
  exact .row nonzero row

theorem isTrimmed_digits : IsTrimmed (digits n) := by
  rcases Nat.eq_zero_or_pos n with rfl | positive
  · rw [digits, Nat.toDigits_zero]
    exact .zero
  · have trimmed := isTrimmed_digits_append positive (List.forall_mem_nil _)
    rwa [List.append_nil] at trimmed

end Digits

/-- A decimal without an exponent is a row of digits, or two of them around a point. -/
theorem positional_cases (d : Decimal) :
    (0 ≤ d.exponent ∧ d.positional = digits d.coefficient ++ List.replicate d.exponent.toNat '0') ∨
      ∃ front behind : List Char, d.exponent = -behind.length ∧ behind ≠ [] ∧ IsTrimmed front ∧
        (∀ c ∈ front ++ behind, c.isDigit) ∧ rowValue (front ++ behind) = d.coefficient ∧
        d.positional = front ++ '.' :: behind := by
  rw [positional]
  have row : ∀ c ∈ digits d.coefficient, c.isDigit := fun _ => isDigit_of_mem_digits d.coefficient
  split_ifs with whole short
  · exact .inl ⟨by omega, rfl⟩
  · refine .inr ⟨_, _, ?_, ?_, ?_, ?_, ?_, rfl⟩
    · rw [List.length_drop]
      omega
    · rw [Ne, List.drop_eq_nil_iff]
      omega
    · have positive : 0 < d.coefficient := by
        by_contra zero
        rw [Nat.eq_zero_of_not_pos zero, digits, Nat.toDigits_zero, List.length_singleton] at short
        omega
      exact isTrimmed_take_digits positive (by omega)
    · rwa [List.take_append_drop]
    · rw [List.take_append_drop, rowValue_digits]
  · refine .inr ⟨['0'], List.replicate ((-d.exponent).toNat - (digits d.coefficient).length) '0' ++
      digits d.coefficient, ?_, ?_, .zero, ?_, ?_, rfl⟩
    · rw [List.length_append, List.length_replicate]
      omega
    · exact List.append_ne_nil_of_right_ne_nil _ (digits_ne_nil _)
    · simp only [List.forall_mem_append, List.forall_mem_singleton]
      exact ⟨rfl, fun _ => isDigit_of_mem_zeros, row⟩
    · rw [rowValue_append, rowValue_append, rowValue_zeros, rowValue_digits, Nat.zero_mul, Nat.zero_add]
      simp [rowValue]

/-- A whole decimal denotes the number of its digits and the zeros behind them. -/
theorem value_whole {d : Decimal} (whole : 0 ≤ d.exponent) :
    d.value = rowValue (digits d.coefficient ++ List.replicate d.exponent.toNat '0') := by
  obtain ⟨zeros, exponent⟩ := Int.eq_ofNat_of_zero_le whole
  rw [rowValue_append, rowValue_digits, rowValue_zeros, List.length_replicate, value, exponent, Int.toNat_natCast]
  push_cast
  rw [add_zero, zpow_natCast]

/-- A decimal without an exponent is a numeral for the number that it denotes. -/
theorem numeral_positional (d : Decimal) : Numeral d.positional d.value := by
  rcases d.positional_cases with ⟨whole, text⟩ | ⟨front, behind, places, writtenBehind, trimmed, row, value, text⟩
  · rw [text, value_whole whole]
    apply Numeral.whole
    · exact List.append_ne_nil_of_left_ne_nil (digits_ne_nil _) _
    · exact List.forall_mem_append.mpr ⟨fun _ => isDigit_of_mem_digits _, fun _ => isDigit_of_mem_zeros⟩
  · obtain ⟨rowFront, rowBehind⟩ := List.forall_mem_append.mp row
    have numeral := Numeral.fraction trimmed.ne_nil rowFront writtenBehind rowBehind
    rw [rowValue_append] at value
    have same : d.value = rowValue front + rowValue behind / 10 ^ behind.length := by
      rw [Decimal.value, places, ← value, zpow_neg, zpow_natCast]
      push_cast
      field_simp
    rwa [text, same]

end Decimal

end ScopedScript
