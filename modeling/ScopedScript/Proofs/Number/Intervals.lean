import ScopedScript.Number.Shortest
import ScopedScript.Proofs.Number.Numerals
import ScopedScript.Proofs.Number.Signs
namespace ScopedScript

/-!
# Numbers that are read as a given double

The rounding interval of a positive double ends half way to its neighbours.  Every number inside of it is
nearest to this double, and so are its ends when the significand is even.  Just below a power of two the
doubles lie twice as close together, and the power counts there as the double of a significand with one
binary digit more.

The decimal that is found for a double lies in its interval, by the test that the search makes or else
because it is the exact number.  So it is read as that double.
-/

/-- A number lies in the rounding interval of `significand * 2 ^ exponent`. -/
structure RoundsTo (q : ℚ) (significand : Nat) (exponent : Int) : Prop where
  atLeast : (roundingInterval significand exponent).lower * 2 ^ (exponent - 2) ≤ q
  atMost : q ≤ (roundingInterval significand exponent).upper * 2 ^ (exponent - 2)
  inside : significand % 2 = 0 ∨
    ((roundingInterval significand exponent).lower * 2 ^ (exponent - 2) < q ∧
      q < (roundingInterval significand exponent).upper * 2 ^ (exponent - 2))

/-! ## Inside of the interval a double is nearest -/

namespace Binary64

/-- A double is nearest to the numbers that are at most half a unit of its last place away. -/
theorem isNearest_of_half {x : Float} {place m : Nat} {q : ℚ} (bits : x.toBits.toNat = place * binade + m)
    (bounded : m ≤ 2 * binade) (normal : place = 0 ∨ binade ≤ m)
    (small : place * binade + m ≤ infinitePattern)
    (reached : place = 0 ∨ binade * 2 ^ (place - 1074 : ℤ) ≤ q)
    (low : (m - 1 / 2) * 2 ^ (place - 1074 : ℤ) ≤ q) (high : q ≤ (m + 1 / 2) * 2 ^ (place - 1074 : ℤ))
    (inside : m % 2 = 0 ∨ ((m - 1 / 2) * 2 ^ (place - 1074 : ℤ) < q ∧
      q < (m + 1 / 2) * 2 ^ (place - 1074 : ℤ))) : IsNearest x q := by
  have unit : (0 : ℚ) < 2 ^ (place - 1074 : ℤ) := by positivity
  apply isNearest_of_unit bits bounded normal small reached
  · rw [abs_le]
    rw [← le_div_iff₀ unit] at low
    rw [← div_le_iff₀ unit] at high
    constructor <;> linarith
  · intro tie
    refine inside.resolve_right fun strict => ?_
    obtain ⟨above, below⟩ := strict
    rw [← lt_div_iff₀ unit] at above
    rw [← div_lt_iff₀ unit] at below
    rcases abs_eq (by norm_num) |>.mp tie with right | left
    · linarith
    · linarith

theorem quarter_eq (e : ℤ) : (2 : ℚ) ^ (e - 2) = 2 ^ e / 4 := by
  rw [zpow_sub₀ two_ne_zero]
  norm_num

theorem doubled_unit (place : Nat) : (2 : ℚ) ^ ((place + 1 : Nat) - 1074 : ℤ) = 2 * 2 ^ (place - 1074 : ℤ) := by
  rw [← zpow_one_add₀ two_ne_zero]
  congr 1
  push_cast
  ring

/-- A power of two is nearest to the numbers in its interval: those below it are measured in the unit that is
half as large. -/
theorem isNearest_of_narrow {x : Float} {place : Nat} {q : ℚ}
    (bits : x.toBits.toNat = (place + 1) * binade + binade)
    (small : (place + 1) * binade + binade ≤ infinitePattern)
    (low : (2 * binade - 1 / 2) * 2 ^ (place - 1074 : ℤ) ≤ q)
    (high : q ≤ (2 * binade + 1) * 2 ^ (place - 1074 : ℤ)) : IsNearest x q := by
  have unit : (0 : ℚ) < 2 ^ (place - 1074 : ℤ) := by positivity
  have size : (1 : ℚ) ≤ binade := by rw [binade_eq]; norm_num
  have even : binade % 2 = 0 := by rw [binade_eq]; norm_num
  rcases le_or_gt (2 * (binade : ℚ) * 2 ^ (place - 1074 : ℤ)) q with above | below
  · apply isNearest_of_half bits (by omega) (.inr le_rfl) small (.inr ?_) ?_ ?_ (.inl even)
    · rw [doubled_unit]
      linarith
    · rw [doubled_unit]
      linarith
    · rw [doubled_unit]
      linarith
  · have carried : (place + 1) * binade + binade = place * binade + 2 * binade := by ring
    rw [carried] at bits small
    apply isNearest_of_half bits le_rfl (.inr (by omega)) small (.inr ?_) ?_ ?_ (.inl (by omega))
    · refine le_trans (mul_le_mul_of_nonneg_right ?_ unit.le) low
      linarith
    · push_cast
      exact low
    · push_cast
      linarith

/-- A double is nearest to every number in its rounding interval. -/
theorem isNearest_of_roundsTo {x : Float} {m : Nat} {e : Int} {q : ℚ} (view : ofFloat x = .finite false m e)
    (rounds : RoundsTo q m e) : IsNearest x q := by
  obtain ⟨place, rfl, bits, bounded, normal, small⟩ := place_of_ofFloat view
  obtain ⟨low, high, inside⟩ := rounds
  have unit : (0 : ℚ) < 2 ^ (place - 1074 : ℤ) := by positivity
  have upper : ((roundingInterval m (place - 1074)).upper : ℚ) = 4 * m + 2 := by
    rw [roundingInterval]
    push_cast
    rfl
  rw [quarter_eq, upper] at high inside
  rw [quarter_eq] at low
  by_cases narrow : m = binade ∧ leastExponent < place - 1074
  · have lower : (roundingInterval m (place - 1074)).lower = 4 * m - 1 := if_pos narrow
    obtain ⟨rfl, lifted⟩ := narrow
    obtain ⟨place, rfl⟩ : ∃ below, place = below + 1 := ⟨place - 1, by rw [leastExponent] at lifted; omega⟩
    have positive : 1 ≤ 4 * binade := by rw [binade_eq]; norm_num
    rw [lower, doubled_unit] at low
    rw [doubled_unit] at high
    push_cast [positive] at low
    refine isNearest_of_narrow bits small (le_trans (le_of_eq ?_) low) (high.trans (le_of_eq ?_)) <;> ring
  · have lower : (roundingInterval m (place - 1074)).lower = 4 * m - 2 := if_neg narrow
    have least : (4 * m : ℚ) - 2 ≤ (roundingInterval m (place - 1074)).lower := by
      have : 4 * m ≤ 4 * m - 2 + 2 := by omega
      rw [lower, sub_le_iff_le_add]
      exact_mod_cast this
    have bound : ((m : ℚ) - 1 / 2) * 2 ^ (place - 1074 : ℤ) ≤
        (roundingInterval m (place - 1074)).lower * (2 ^ (place - 1074 : ℤ) / 4) := by nlinarith
    apply isNearest_of_half bits bounded.le normal small ?_ (bound.trans low) (by linarith)
    · refine inside.imp_right fun strict => ⟨bound.trans_lt strict.1, by linarith⟩
    · by_cases lowest : place = 0
      · exact .inl lowest
      have tall : binade + 1 ≤ m := by
        rcases normal with impossible | reached
        · exact absurd impossible lowest
        · rw [leastExponent] at narrow
          omega
      have : (binade : ℚ) + 1 ≤ m := by exact_mod_cast tall
      exact .inr (by nlinarith)

end Binary64

/-! ## The decimals that are found lie in the interval -/

section Grid

variable {tie : Tie} {significand : Nat} {exponent power : Int}

theorem powerOfTen_eq (places : Nat) : powerOfTen places = 10 ^ places := rfl

/-- The two sides of the test in the search are multiples of a power of two and of one of ten, with one factor
in common. -/
theorem exists_scale (e p : Int) : ∃ scale : ℚ, 0 < scale ∧
    (∀ a : Nat, ((a * (dyadicNumerator 1 e * powerOfTen (-p).toNat) : Nat) : ℚ) = scale * (a * 2 ^ e)) ∧
    ∀ c : Nat, ((c * (dyadicDenominator e * powerOfTen p.toNat) : Nat) : ℚ) = scale * (c * 10 ^ p) := by
  refine ⟨2 ^ (-e).toNat * 10 ^ (-p).toNat, by positivity, fun a => ?_, fun c => ?_⟩
  · rw [← toNat_pow_div e two_ne_zero, dyadicNumerator_eq, powerOfTen_eq]
    push_cast
    field_simp
  · rw [← toNat_pow_div p (by norm_num : (10 : ℚ) ≠ 0), dyadicDenominator_eq, powerOfTen_eq]
    push_cast
    field_simp

/-- The multiple of a power of ten that is found passes the test. -/
theorem inside_of_gridPoint? {coefficient : Nat}
    (found : gridPoint? tie significand exponent power = some coefficient) :
    let interval := roundingInterval significand exponent
    let quarter := dyadicNumerator 1 (exponent - 2) * powerOfTen (-power).toNat
    let grid := dyadicDenominator (exponent - 2) * powerOfTen power.toNat
    (interval.lower * quarter ≤ coefficient * grid ∧ coefficient * grid ≤ interval.upper * quarter) ∧
      (interval.closed ∨
        interval.lower * quarter < coefficient * grid ∧ coefficient * grid < interval.upper * quarter) := by
  unfold gridPoint? at found
  extract_lets interval quarter grid inside below above remainder nearer at found
  have tested : inside coefficient = true := by
    have isNeighbour : nearer = above ∨ nearer = below := by
      unfold nearer above
      split_ifs
      · exact .inl rfl
      · exact .inr rfl
      · cases tie with
        | upward => exact .inl rfl
        | even => dsimp only; omega
    split_ifs at found with both low high
    · rw [Bool.and_eq_true] at both
      rw [← Option.some.inj found]
      rcases isNeighbour with same | same
      · rw [same]; exact both.2
      · rw [same]; exact both.1
    · rw [← Option.some.inj found]; exact low
    · rw [← Option.some.inj found]; exact high
  unfold inside at tested
  split_ifs at tested with closed
  · exact ⟨of_decide_eq_true tested, .inl closed⟩
  · have strict := of_decide_eq_true tested
    exact ⟨strict.imp le_of_lt le_of_lt, .inr strict⟩

/-- The multiple of a power of ten that is found lies in the interval. -/
theorem roundsTo_of_gridPoint? {coefficient : Nat}
    (found : gridPoint? tie significand exponent power = some coefficient) :
    RoundsTo (Decimal.mk coefficient power).value significand exponent := by
  obtain ⟨scale, positive, quarters, multiple⟩ := exists_scale (exponent - 2) power
  have tested := inside_of_gridPoint? found
  simp only [← @Nat.cast_le ℚ, ← @Nat.cast_lt ℚ, quarters, multiple, mul_le_mul_iff_right₀ positive,
    mul_lt_mul_iff_right₀ positive] at tested
  obtain ⟨⟨low, high⟩, inside⟩ := tested
  exact ⟨low, high, inside.imp_left beq_iff_eq.mp⟩

/-- The exact number lies in the interval. -/
theorem roundsTo_exact (significand : Nat) (exponent : Int) :
    RoundsTo (significand * 2 ^ exponent) significand exponent := by
  have unit : (0 : ℚ) < 2 ^ exponent := by positivity
  have above : ((roundingInterval significand exponent).upper : ℚ) = 4 * significand + 2 := by
    rw [roundingInterval]
    push_cast
    rfl
  have high : (significand * 2 ^ exponent : ℚ) <
      (roundingInterval significand exponent).upper * 2 ^ (exponent - 2) := by
    rw [Binary64.quarter_eq, above]
    nlinarith
  rcases Nat.eq_zero_or_pos significand with rfl | positive
  · have lower : (roundingInterval 0 exponent).lower = 0 := by
      rw [roundingInterval]
      dsimp only
      split_ifs <;> rfl
    refine ⟨?_, high.le, .inl rfl⟩
    rw [lower, Nat.cast_zero, zero_mul, zero_mul]
  · have below : ((roundingInterval significand exponent).lower : ℚ) < 4 * significand := by
      have : (roundingInterval significand exponent).lower < 4 * significand := by
        rw [roundingInterval]
        dsimp only
        split_ifs <;> omega
      exact_mod_cast this
    have low : (roundingInterval significand exponent).lower * (2 : ℚ) ^ (exponent - 2) <
        significand * 2 ^ exponent := by
      rw [Binary64.quarter_eq]
      nlinarith
    exact ⟨low.le, high.le, .inr ⟨low, high⟩⟩

theorem value_exactDecimal : (exactDecimal significand exponent).value = significand * 2 ^ exponent := by
  unfold exactDecimal Decimal.value
  split_ifs with whole
  · obtain ⟨places, rfl⟩ := Int.eq_ofNat_of_zero_le whole
    rw [zpow_zero, mul_one, Nat.shiftLeft_eq]
    push_cast
    rfl
  · obtain ⟨places, rfl⟩ : ∃ places : Nat, exponent = -places := ⟨(-exponent).toNat, by omega⟩
    have ten : (10 : ℚ) = 2 * 5 := by norm_num
    rw [neg_neg, Int.toNat_natCast, ten, mul_zpow, zpow_neg, zpow_neg, zpow_natCast, zpow_natCast,
      Nat.pow_eq]
    push_cast
    field_simp

/-- The decimal that is found for a double lies in its interval. -/
theorem roundsTo_shortestDecimal (tie : Tie) (significand : Nat) (exponent : Int) :
    RoundsTo (shortestDecimal tie significand exponent).value significand exponent := by
  unfold shortestDecimal
  dsimp only
  cases searched : (List.range 19).findSome? fun finer : Nat =>
      (gridPoint? tie significand exponent (coarsestPower significand exponent - finer)).map fun coefficient =>
        Decimal.mk coefficient (coarsestPower significand exponent - finer) with
  | some d =>
      obtain ⟨finer, -, found⟩ := List.exists_of_findSome?_eq_some searched
      obtain ⟨coefficient, point, rfl⟩ := Option.map_eq_some_iff.mp found
      exact roundsTo_of_gridPoint? point
  | none =>
      rw [Option.getD_none, value_exactDecimal]
      exact roundsTo_exact significand exponent

end Grid

end ScopedScript
