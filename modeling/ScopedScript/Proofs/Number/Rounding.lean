import Mathlib
import ScopedScript.Number.Nearest
namespace ScopedScript

/-!
# Rounding finds the nearest double

Doubles are compared with fractions as rational numbers.  Infinity counts as the power of two at which
the finite doubles would go on, so that a fraction rounds to infinity from half a step below it on.

Between two powers of two the doubles are the multiples of a third one.  Rounding to a multiple of that
power therefore finds the nearest double: those below the lower power of two lie closer together, but the
lower power itself is nearer than they are.
-/

namespace Binary64

/-- A number with a sign. -/
def signed (negative : Bool) (q : ℚ) : ℚ := if negative then -q else q

/-- The power of two that the finite doubles stay below. -/
def limit : ℚ := 2 ^ 1024

/-- The number that a double stands for when it is compared with others. -/
def worth? : Binary64 → Option ℚ
  | nan => none
  | infinite negative => some (signed negative limit)
  | finite negative significand exponent => some (signed negative (significand * 2 ^ exponent))

/-- The double is the one nearest to the number among all doubles, and where another one is as near, its
last bit is zero.  It carries no sign. -/
structure IsNearest (x : Float) (q : ℚ) : Prop where
  unsigned : x.toBits.toNat < 1 <<< 63
  closest : ∃ v, worth? (ofFloat x) = some v ∧ ∀ y w, worth? (ofFloat y) = some w →
    |v - q| ≤ |w - q| ∧ (|w - q| = |v - q| → w = v ∨ x.toBits.toNat % 2 = 0)

theorem binade_eq : binade = 2 ^ 52 := by
  rw [binade, Nat.one_shiftLeft]

theorem cast_binade : (binade : ℚ) = 2 ^ (52 : ℤ) := by
  rw [binade_eq]; norm_num

end Binary64

/-! ## Fractions with a power of two -/

section Dyadic

variable (n d : Nat) (exponent : Int)

theorem dyadicNumerator_eq : dyadicNumerator n exponent = n * 2 ^ exponent.toNat := by
  rw [dyadicNumerator, Nat.shiftLeft_eq]

theorem dyadicDenominator_eq : dyadicDenominator exponent = 2 ^ (-exponent).toNat := by
  rw [dyadicDenominator, Nat.shiftLeft_eq, one_mul]

/-- A power is the quotient of its two parts. -/
theorem toNat_pow_div {base : ℚ} (nonzero : base ≠ 0) :
    base ^ exponent.toNat / base ^ (-exponent).toNat = base ^ exponent := by
  rw [← zpow_natCast, ← zpow_natCast, ← zpow_sub₀ nonzero, Int.toNat_sub_toNat_neg]

/-- A fraction measured in a power of two. -/
theorem scaled_eq (positive : 0 < d) :
    ((n * dyadicDenominator exponent : Nat) : ℚ) / (dyadicNumerator d exponent : Nat) =
      n / d / 2 ^ exponent := by
  rw [dyadicDenominator_eq, dyadicNumerator_eq, ← toNat_pow_div exponent two_ne_zero]
  push_cast
  have : (d : ℚ) ≠ 0 := by positivity
  field_simp

theorem dyadicNumerator_pos (positive : 0 < d) : 0 < dyadicNumerator d exponent := by
  rw [dyadicNumerator_eq]; positivity

/-- A fraction is below a power of two when the parts say so. -/
theorem div_lt_pow_iff (positive : 0 < d) :
    n * dyadicDenominator exponent < dyadicNumerator d exponent ↔ (n : ℚ) / d < 2 ^ exponent := by
  have scaled := dyadicNumerator_pos d exponent positive
  have apart : (n : ℚ) / d / 2 ^ exponent < 1 ↔ (n : ℚ) / d < 2 ^ exponent := by
    rw [div_lt_one (by positivity)]
  rw [← apart, ← scaled_eq n d exponent positive, div_lt_one (by exact_mod_cast scaled)]
  norm_cast

end Dyadic

/-! ## The nearest whole number -/

/-- A rounded fraction is at most one half away, and it is even when it is just that far away. -/
theorem roundHalfEven_near (n d : Nat) (positive : 0 < d) :
    |(roundHalfEven n d : ℚ) - n / d| ≤ 1 / 2 ∧
      (|(roundHalfEven n d : ℚ) - n / d| = 1 / 2 → roundHalfEven n d % 2 = 0) := by
  have size : (0 : ℚ) < d := by exact_mod_cast positive
  have split : (n : ℚ) / d = (n / d : Nat) + (n % d : Nat) / d := by
    rw [div_eq_iff size.ne', add_mul, div_mul_cancel₀ _ size.ne']
    exact_mod_cast (Nat.div_add_mod' n d).symm
  have least : (0 : ℚ) ≤ (n % d : Nat) / d := by positivity
  have below : ((n % d : Nat) : ℚ) / d < 1 := by
    rw [div_lt_one size]
    exact_mod_cast Nat.mod_lt n positive
  rw [split]
  unfold roundHalfEven
  dsimp only
  split_ifs with above under
  · have half : (1 : ℚ) / 2 < (n % d : Nat) / d := by
      rw [lt_div_iff₀ size]
      have : (d : ℚ) < 2 * (n % d : Nat) := by exact_mod_cast above
      linarith
    push_cast
    rw [add_sub_add_left_eq_sub, abs_of_pos (by linarith)]
    exact ⟨by linarith, fun tie => absurd tie (by linarith)⟩
  · have half : ((n % d : Nat) : ℚ) / d < 1 / 2 := by
      rw [div_lt_iff₀ size]
      have : 2 * ((n % d : Nat) : ℚ) < d := by exact_mod_cast under
      linarith
    rw [sub_add_cancel_left, abs_neg, abs_of_nonneg least]
    exact ⟨half.le, fun tie => absurd tie half.ne⟩
  · have half : ((n % d : Nat) : ℚ) / d = 1 / 2 := by
      have : 2 * ((n % d : Nat) : ℚ) = d := by exact_mod_cast (by omega : 2 * (n % d) = d)
      rw [div_eq_iff size.ne']
      linarith
    rw [half]
    refine ⟨?_, fun _ => by omega⟩
    rcases Nat.mod_two_eq_zero_or_one (n / d) with even | odd
    · rw [even, Nat.add_zero, sub_add_cancel_left, abs_neg, abs_of_pos one_half_pos]
    · rw [odd]
      push_cast
      rw [add_sub_add_left_eq_sub]
      norm_num

/-- A whole number within one half of a number is the nearest one; no other is as near unless it is just
one half away. -/
theorem nearest_of_near {m : Nat} {x : ℚ} (near : |(m : ℚ) - x| ≤ 1 / 2)
    (tie : |(m : ℚ) - x| = 1 / 2 → m % 2 = 0) (k : Int) :
    |(m : ℚ) - x| ≤ |k - x| ∧ (|k - x| = |(m : ℚ) - x| → k = m ∨ m % 2 = 0) := by
  by_cases same : k = m
  · subst same
    exact ⟨le_rfl, fun _ => .inl rfl⟩
  · have apart : (1 : ℚ) ≤ |(k : ℚ) - m| := by
      exact_mod_cast Int.one_le_abs (sub_ne_zero.mpr same)
    have triangle : |(k : ℚ) - m| ≤ |k - x| + |(m : ℚ) - x| := by
      rw [abs_sub_comm (m : ℚ) x]
      exact abs_sub_le _ _ _
    exact ⟨by linarith, fun equal => .inr (tie (by linarith))⟩

/-! ## The power of two below a fraction -/

/-- A fraction lies between the power of two with its exponent and the next one. -/
theorem binaryExponent_bounds {n d : Nat} (some_n : n ≠ 0) (positive : 0 < d) :
    (2 : ℚ) ^ binaryExponent n d ≤ n / d ∧ (n : ℚ) / d < 2 ^ (binaryExponent n d + 1) := by
  have size : (0 : ℚ) < d := by exact_mod_cast positive
  have n_least : (2 : ℚ) ^ (n.log2 : ℤ) ≤ n := by exact_mod_cast Nat.log2_self_le some_n
  have n_below : (n : ℚ) < 2 ^ (n.log2 + 1 : ℤ) := by exact_mod_cast Nat.lt_log2_self
  have d_least : (2 : ℚ) ^ (d.log2 : ℤ) ≤ d := by exact_mod_cast Nat.log2_self_le positive.ne'
  have d_below : (d : ℚ) < 2 ^ (d.log2 + 1 : ℤ) := by exact_mod_cast Nat.lt_log2_self
  have least : (2 : ℚ) ^ (n.log2 - d.log2 - 1 : ℤ) ≤ n / d := by
    rw [le_div_iff₀ size]
    calc (2 : ℚ) ^ (n.log2 - d.log2 - 1 : ℤ) * d
        ≤ 2 ^ (n.log2 - d.log2 - 1 : ℤ) * 2 ^ (d.log2 + 1 : ℤ) := by gcongr
      _ = 2 ^ (n.log2 : ℤ) := by rw [← zpow_add₀ two_ne_zero]; congr 1; omega
      _ ≤ n := n_least
  have below : (n : ℚ) / d < 2 ^ (n.log2 - d.log2 + 1 : ℤ) := by
    rw [div_lt_iff₀ size]
    calc (n : ℚ) < 2 ^ (n.log2 + 1 : ℤ) := n_below
      _ = 2 ^ (n.log2 - d.log2 + 1 : ℤ) * 2 ^ (d.log2 : ℤ) := by
        rw [← zpow_add₀ two_ne_zero]; congr 1; omega
      _ ≤ 2 ^ (n.log2 - d.log2 + 1 : ℤ) * d := by gcongr
  unfold binaryExponent
  dsimp only
  simp only [div_lt_pow_iff n d _ positive]
  split_ifs with under
  · exact ⟨least, by rwa [sub_add_cancel]⟩
  · exact ⟨not_lt.mp under, below⟩

/-! ## The doubles in the order of their bit patterns -/

namespace Binary64

/-- The doubles without a sign, by their place in the order of powers of two and the rest. -/
theorem ofPattern_eq {place rest : Nat} (fraction : rest < binade) (small : place ≤ 2047) :
    ofPattern (place * binade + rest) =
      if place = 2047 then if rest = 0 then .infinite false else .nan
      else if place = 0 then .finite false rest leastExponent
      else .finite false (binade + rest) (place - 1075) := by
  rw [binade_eq] at fraction
  have sign : (place * binade + rest) >>> 63 % 2 = 0 := by
    rw [binade_eq, Nat.shiftRight_eq_div_pow]
    omega
  have biased : (place * binade + rest) / binade % 2048 = place := by
    rw [binade_eq]
    omega
  have remaining : (place * binade + rest) % binade = rest := by
    rw [binade_eq]
    omega
  unfold ofPattern
  simp only [sign, biased, remaining]
  rfl

theorem full_binade : (binade : ℚ) * 2 ^ (972 : ℤ) = limit := by
  rw [cast_binade, ← zpow_add₀ two_ne_zero, limit]
  exact zpow_natCast 2 1024

/-- The number that a double without a sign stands for, above the least power of two. -/
theorem worth?_of_normal {place rest : Nat} (fraction : rest < binade)
    (small : (place + 1) * binade + rest ≤ infinitePattern) :
    worth? (ofPattern ((place + 1) * binade + rest)) =
      some ((binade + rest : Nat) * (2 : ℚ) ^ (place - 1074 : ℤ)) := by
  have least : 0 < binade := Nat.zero_lt_of_lt fraction
  have place_le : place + 1 ≤ 2047 :=
    Nat.le_of_mul_le_mul_right (le_trans (Nat.le_add_right _ rest) small) least
  rw [ofPattern_eq fraction place_le]
  by_cases top : place + 1 = 2047
  · obtain rfl : place = 2046 := by omega
    obtain rfl : rest = 0 := by rw [infinitePattern] at small; omega
    rw [if_pos rfl, if_pos rfl, Nat.add_zero, worth?, signed, if_neg Bool.false_ne_true, ← full_binade]
    norm_num
  · rw [if_neg top, if_neg place.succ_ne_zero, worth?, signed, if_neg Bool.false_ne_true]
    congr 3
    omega

/-- The number that a double without a sign stands for.  The rest may reach the next power of two. -/
theorem worth?_ofPattern {place m : Nat} (bounded : m ≤ 2 * binade)
    (normal : place = 0 ∨ binade ≤ m) (small : place * binade + m ≤ infinitePattern) :
    worth? (ofPattern (place * binade + m)) = some (m * (2 : ℚ) ^ (place - 1074 : ℤ)) := by
  have least : 0 < binade := by rw [binade_eq]; norm_num
  rcases Nat.lt_or_ge m binade with below | reached
  · obtain rfl : place = 0 := by omega
    rw [ofPattern_eq below (by omega)]
    simp [worth?, signed, leastExponent]
  obtain ⟨rest, rfl⟩ := Nat.exists_eq_add_of_le reached
  rcases Nat.lt_or_ge rest binade with below | full
  · have carried : place * binade + (binade + rest) = (place + 1) * binade + rest := by ring
    rw [carried] at small ⊢
    exact worth?_of_normal below small
  · obtain rfl : rest = binade := by omega
    have carried : place * binade + (binade + binade) = (place + 1 + 1) * binade + 0 := by ring
    rw [carried] at small ⊢
    rw [worth?_of_normal least small]
    have : ((place + 1 : Nat) - 1074 : ℤ) = 1 + (place - 1074) := by push_cast; ring
    rw [this, zpow_add₀ two_ne_zero]
    push_cast
    ring_nf

/-- Every double with a worth is a signed multiple of a power of two, within the same bounds. -/
theorem place_of_worth? {bits : Nat} {w : ℚ} (worth : worth? (ofPattern bits) = some w) :
    ∃ negative, ∃ place m : Nat, w = signed negative (m * 2 ^ (place - 1074 : ℤ)) ∧
      m < 2 * binade ∧ (place = 0 ∨ binade ≤ m) ∧ place * binade + m ≤ infinitePattern := by
  have below : bits % binade < binade := Nat.mod_lt _ (by rw [binade_eq]; norm_num)
  have biased_lt : bits / binade % 2048 < 2048 := Nat.mod_lt _ (by norm_num)
  refine ⟨bits >>> 63 % 2 == 1, ?_⟩
  unfold ofPattern at worth
  dsimp only at worth
  unfold infinitePattern
  split_ifs at worth with top nothing bottom
  · refine ⟨2046, binade, (Option.some.inj worth).symm.trans ?_, by omega, .inr le_rfl, by omega⟩
    rw [← full_binade]
    norm_num
  · exact absurd worth nofun
  · refine ⟨0, bits % binade, (Option.some.inj worth).symm.trans ?_, by omega, .inl rfl, by omega⟩
    simp [leastExponent]
  · obtain ⟨place, placed⟩ := Nat.exists_eq_succ_of_ne_zero bottom
    refine ⟨place, binade + bits % binade, (Option.some.inj worth).symm.trans ?_, by omega,
      .inr (Nat.le_add_right _ _), ?_⟩
    · rw [placed]
      congr 3
      omega
    · have : place + 1 ≤ 2046 := by omega
      calc place * binade + (binade + bits % binade)
          = (place + 1) * binade + bits % binade := by ring
        _ ≤ 2046 * binade + binade := by gcongr
        _ = 2047 * binade := by ring

theorem abs_signed (negative : Bool) {q : ℚ} (nonneg : 0 ≤ q) : |signed negative q| = q := by
  cases negative
  · exact abs_of_nonneg nonneg
  · exact (abs_neg q).trans (abs_of_nonneg nonneg)

/-- No double stands for more than infinity does. -/
theorem abs_worth_le {bits : Nat} {w : ℚ} (worth : worth? (ofPattern bits) = some w) :
    |w| ≤ limit := by
  obtain ⟨negative, place, m, rfl, bounded, normal, small⟩ := place_of_worth? worth
  have least : 0 < binade := by rw [binade_eq]; norm_num
  rw [abs_signed negative (by positivity), ← full_binade]
  rw [infinitePattern] at small
  rcases Nat.lt_or_ge place 2046 with below | top
  · have exponent_le : (place - 1074 : ℤ) ≤ 971 := by omega
    have m_le : (m : ℚ) ≤ 2 * binade := by exact_mod_cast bounded.le
    calc (m : ℚ) * 2 ^ (place - 1074 : ℤ) ≤ 2 * binade * 2 ^ (971 : ℤ) := by
          gcongr
          norm_num
      _ = binade * 2 ^ (972 : ℤ) := by
          rw [show (972 : ℤ) = 1 + 971 by norm_num, zpow_add₀ two_ne_zero]
          ring
  · have reached : binade ≤ m := normal.resolve_left (by omega)
    obtain rfl : place = 2046 := by
      have : (place + 1) * binade ≤ 2047 * binade := by linarith
      have := Nat.le_of_mul_le_mul_right this least
      omega
    have m_le : (m : ℚ) ≤ binade := by exact_mod_cast (by omega : m ≤ binade)
    calc (m : ℚ) * 2 ^ ((2046 : Nat) - 1074 : ℤ) ≤ binade * 2 ^ ((2046 : Nat) - 1074 : ℤ) := by gcongr
      _ = binade * 2 ^ (972 : ℤ) := by norm_num

/-- Some multiple of the unit in the last place of a number is as near to it as any given double.  Doubles of
a lower power of two are less near than that power itself. -/
theorem multiple_nearer {bits : Nat} {q w : ℚ} (worth : worth? (ofPattern bits) = some w) {e : ℤ}
    (reached : e = leastExponent ∨ binade * 2 ^ e ≤ q) :
    ∃ j : ℤ, w = j * 2 ^ e ∨ |j * 2 ^ e - q| < |w - q| := by
  obtain ⟨negative, place, m, rfl, bounded, normal, small⟩ := place_of_worth? worth
  rcases le_or_gt e (place - 1074) with coarse | fine
  · have power : (2 : ℚ) ^ (place - 1074 : ℤ) = 2 ^ (place - 1074 - e).toNat * 2 ^ e := by
      rw [← zpow_natCast, ← zpow_add₀ two_ne_zero]
      congr 1
      omega
    refine ⟨(if negative then -1 else 1) * (m * 2 ^ (place - 1074 - e).toNat : Nat), .inl ?_⟩
    rw [power, signed]
    split_ifs <;> push_cast <;> ring
  · -- the doubles from here on are all smaller than `binade * 2 ^ e`
    have at_least : binade * 2 ^ e ≤ q := by
      refine reached.resolve_left fun lowest => ?_
      rw [lowest, leastExponent] at fine
      omega
    have m_lt : (m : ℚ) < 2 * binade := by exact_mod_cast bounded
    have smaller : signed negative (m * 2 ^ (place - 1074 : ℤ)) < binade * 2 ^ e := by
      refine (le_abs_self _).trans_lt ?_
      rw [abs_signed negative (by positivity)]
      calc (m : ℚ) * 2 ^ (place - 1074 : ℤ) < 2 * binade * 2 ^ (place - 1074 : ℤ) := by gcongr
        _ ≤ 2 * binade * 2 ^ (e - 1) := by
            refine mul_le_mul_of_nonneg_left (zpow_le_zpow_right₀ one_le_two ?_) (by positivity)
            omega
        _ = binade * 2 ^ e := by
            rw [show e = 1 + (e - 1) by ring, zpow_add₀ two_ne_zero, add_sub_cancel_left]
            ring
    refine ⟨binade, .inr ?_⟩
    rw [Int.cast_natCast, abs_of_nonpos (by linarith), abs_of_nonpos (by linarith)]
    linarith

/-! ## The nearest double -/

/-- A pattern up to that of infinity is that of a double. -/
theorem toBits_ofBits {p : Nat} (small : p ≤ infinitePattern) :
    (Float.ofBits (UInt64.ofNat p)).toBits.toNat = p := by
  rw [infinitePattern, binade_eq] at small
  have valid : Float.Model.Format.binary64.Valid (UInt64.ofNat p).toBitVec := by
    refine ⟨fun exponent mantissa => absurd (BitVec.eq_of_toNat_eq ?_) mantissa⟩
    have filled := congrArg BitVec.toNat exponent
    simp only [Float.Model.UnpackedFloat.unpackExponent_def, BitVec.extractLsb'_toNat] at filled
    simp only [Float.Model.UnpackedFloat.unpackMantissa_def, BitVec.extractLsb'_toNat]
    simp only [UInt64.toNat_toBitVec, UInt64.toNat_ofNat', Nat.reducePow, BitVec.reduceNeg,
      BitVec.toNat_ofNat, Nat.mod_succ, Nat.shiftRight_zero, Nat.reduceDvd, Nat.mod_mod_of_dvd,
      Nat.zero_mod] at filled ⊢
    omega
  have same : Float.ofBits (UInt64.ofNat p) = ⟨⟨UInt64.ofNat p, valid⟩⟩ :=
    Float.ofBits_toBits ⟨⟨UInt64.ofNat p, valid⟩⟩
  rw [same]
  exact UInt64.toNat_ofNat_of_lt' (lt_of_le_of_lt small (by norm_num [UInt64.size]))

theorem infinitePattern_lt : infinitePattern < 1 <<< 63 := by
  rw [infinitePattern, binade_eq, Nat.one_shiftLeft]
  norm_num

/-- A double that stands for the nearest multiple of the unit in the last place is nearest. -/
theorem isNearest_of_unit {x : Float} {place m : Nat} {q : ℚ} (bits : x.toBits.toNat = place * binade + m)
    (bounded : m ≤ 2 * binade) (normal : place = 0 ∨ binade ≤ m)
    (small : place * binade + m ≤ infinitePattern)
    (reached : place = 0 ∨ binade * 2 ^ (place - 1074 : ℤ) ≤ q)
    (near : |(m : ℚ) - q / 2 ^ (place - 1074 : ℤ)| ≤ 1 / 2)
    (tie : |(m : ℚ) - q / 2 ^ (place - 1074 : ℤ)| = 1 / 2 → m % 2 = 0) : IsNearest x q := by
  have unit : (0 : ℚ) < 2 ^ (place - 1074 : ℤ) := by positivity
  have distance (k : ℚ) : |k * 2 ^ (place - 1074 : ℤ) - q| =
      |k - q / 2 ^ (place - 1074 : ℤ)| * 2 ^ (place - 1074 : ℤ) := by
    rw [← abs_of_pos unit, ← abs_mul, abs_of_pos unit, sub_mul, div_mul_cancel₀ _ unit.ne']
  refine ⟨bits ▸ small.trans_lt infinitePattern_lt, m * 2 ^ (place - 1074 : ℤ), ?_, fun y w worth => ?_⟩
  · rw [ofFloat, bits]
    exact worth?_ofPattern bounded normal small
  obtain ⟨j, multiple⟩ := multiple_nearer (q := q) (e := place - 1074) worth
    (reached.imp (fun lowest => by rw [lowest, leastExponent]; norm_num) id)
  obtain ⟨closest, equal⟩ := nearest_of_near near tie j
  have nearer : |m * 2 ^ (place - 1074 : ℤ) - q| ≤ |j * 2 ^ (place - 1074 : ℤ) - q| := by
    rw [distance, distance]
    exact mul_le_mul_of_nonneg_right closest unit.le
  rcases multiple with rfl | beaten
  · refine ⟨nearer, fun same => ?_⟩
    rw [distance, distance, mul_left_inj' unit.ne'] at same
    rcases equal same with rfl | even
    · exact .inl (by rw [Int.cast_natCast])
    · refine .inr ?_
      rw [bits, binade_eq]
      omega
  · exact ⟨nearer.trans beaten.le, fun same => absurd same (nearer.trans_lt beaten).ne'⟩

/-- Infinity is nearest to what lies beyond it. -/
theorem isNearest_infinite {x : Float} {q : ℚ} (bits : x.toBits.toNat = infinitePattern)
    (beyond : limit ≤ q) : IsNearest x q := by
  have worth : worth? (ofFloat x) = some limit := by
    rw [ofFloat, bits, infinitePattern, ← Nat.add_zero (2047 * binade),
      ofPattern_eq (by rw [binade_eq]; norm_num) le_rfl, if_pos rfl, if_pos rfl]
    rfl
  refine ⟨bits ▸ infinitePattern_lt, _, worth, fun y w other => ?_⟩
  have bound : w ≤ limit := (le_abs_self w).trans (abs_worth_le other)
  rw [abs_of_nonpos (sub_nonpos.mpr beyond), abs_of_nonpos (sub_nonpos.mpr (bound.trans beyond))]
  exact ⟨by linarith only [bound], fun same => .inl (by linarith only [same])⟩

/-- A number rounded to the unit in its last place takes at most fifty-three digits, and just as many unless
the unit is the least one. -/
theorem unit_bounds {q : ℚ} {exponent : ℤ} {place m : Nat} (least : 2 ^ exponent ≤ q)
    (below : q < 2 ^ (exponent + 1)) (unit : max (exponent - 52) leastExponent = place - 1074)
    (near : |(m : ℚ) - q / 2 ^ (place - 1074 : ℤ)| ≤ 1 / 2) :
    m ≤ 2 * binade ∧ (place = 0 ∨ binade ≤ m ∧ binade * 2 ^ (place - 1074 : ℤ) ≤ q) := by
  have size : (0 : ℚ) < 2 ^ (place - 1074 : ℤ) := by positivity
  obtain ⟨lowered, raised⟩ := abs_le.mp near
  rw [leastExponent] at unit
  constructor
  · have scaled : q / 2 ^ (place - 1074 : ℤ) < (2 * binade : Nat) := by
      rw [div_lt_iff₀ size]
      calc q < 2 ^ (exponent + 1) := below
        _ ≤ 2 ^ (1 + 52 + (place - 1074) : ℤ) := zpow_le_zpow_right₀ one_le_two (by omega)
        _ = (2 * binade : Nat) * 2 ^ (place - 1074 : ℤ) := by
            rw [zpow_add₀ two_ne_zero, zpow_add₀ two_ne_zero, ← cast_binade]
            push_cast
            ring
    by_contra exceeded
    have : ((2 * binade : Nat) : ℚ) + 1 ≤ m := by exact_mod_cast not_le.mp exceeded
    linarith only [raised, scaled, this]
  · by_cases lowest : place = 0
    · exact .inl lowest
    have reached : binade * 2 ^ (place - 1074 : ℤ) ≤ q := by
      rw [cast_binade, ← zpow_add₀ two_ne_zero]
      exact (zpow_le_zpow_right₀ one_le_two (by omega)).trans least
    refine .inr ⟨?_, reached⟩
    have scaled := (le_div_iff₀ size).mpr reached
    by_contra under
    have : (m : ℚ) + 1 ≤ binade := by exact_mod_cast not_le.mp under
    linarith only [lowered, scaled, this]

/-- Rounding a fraction finds the nearest double. -/
theorem isNearest_nearestFloat (n d : Nat) (positive : 0 < d) : IsNearest (nearestFloat n d) (n / d) := by
  rcases Nat.eq_zero_or_pos n with rfl | some_n
  · have bits : (nearestFloat 0 d).toBits.toNat = 0 * binade + 0 := by
      rw [nearestFloat, nearestPattern, if_pos rfl, toBits_ofBits (Nat.zero_le _), Nat.zero_mul]
    exact isNearest_of_unit bits (Nat.zero_le _) (.inl rfl) (by rw [Nat.zero_mul]; exact Nat.zero_le _)
      (.inl rfl) (by norm_num) (fun _ => rfl)
  obtain ⟨least, below⟩ := binaryExponent_bounds some_n.ne' positive
  obtain ⟨place, exponent⟩ : ∃ place : Nat,
      max (binaryExponent n d - 52) leastExponent = place - 1074 :=
    ⟨(max (binaryExponent n d - 52) leastExponent + 1074).toNat, by rw [leastExponent]; omega⟩
  have scaled := dyadicNumerator_pos d (place - 1074) positive
  obtain ⟨near, tie⟩ := roundHalfEven_near (n * dyadicDenominator (place - 1074)) _ scaled
  rw [scaled_eq n d _ positive] at near tie
  have pattern : nearestPattern n d = min (place * binade + roundHalfEven
      (n * dyadicDenominator (place - 1074)) (dyadicNumerator d (place - 1074))) infinitePattern := by
    rw [nearestPattern, if_neg some_n.ne']
    dsimp only
    rw [exponent, show (place - 1074 - leastExponent : ℤ).toNat = place by rw [leastExponent]; omega]
  generalize roundHalfEven (n * dyadicDenominator (place - 1074)) (dyadicNumerator d (place - 1074)) = m
    at near tie pattern
  obtain ⟨bounded, tall⟩ := unit_bounds least below exponent near
  rcases le_or_gt (place * binade + m) infinitePattern with small | beyond
  · have bits : (nearestFloat n d).toBits.toNat = place * binade + m := by
      rw [nearestFloat, pattern, min_eq_left small, toBits_ofBits small]
    exact isNearest_of_unit bits bounded (tall.imp_right And.left) small (tall.imp_right And.right) near tie
  · have bits : (nearestFloat n d).toBits.toNat = infinitePattern := by
      rw [nearestFloat, pattern, min_eq_right beyond.le, toBits_ofBits le_rfl]
    have top : 2046 ≤ place := by
      by_contra lower
      have : (place + 2) * binade ≤ 2047 * binade := Nat.mul_le_mul_right _ (by omega)
      rw [infinitePattern] at beyond
      linarith
    refine isNearest_infinite bits (le_trans ?_ (tall.resolve_left (by omega)).2)
    rw [← full_binade]
    exact mul_le_mul_of_nonneg_left (zpow_le_zpow_right₀ one_le_two (by omega)) (Nat.cast_nonneg _)

end Binary64

end ScopedScript
