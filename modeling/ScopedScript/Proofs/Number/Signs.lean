import ScopedScript.Proofs.Number.Order
namespace ScopedScript

/-!
# The sign of a double

A bit pattern is put together from a sign, a biased exponent and a fraction.  Negation changes the sign and
nothing else, so on finite doubles it undoes itself.  A double is finite unless all bits of its exponent are
set.
-/

namespace Binary64

open Float.Model (UnpackedFloat Format)
open Float.Model.UnpackedFloat (Sign)

/-- The pattern with the given sign, biased exponent and fraction. -/
abbrev fields (sign : Sign) (biased : BitVec 11) (fraction : BitVec 52) : BitVec 64 :=
  UnpackedFloat.packComponents Format.binary64 sign biased fraction

theorem exists_fields (pattern : BitVec 64) :
    ∃ sign biased fraction, pattern = fields sign biased fraction :=
  ⟨_, _, _, (@UnpackedFloat.packComponents_unpackSign_unpackExponent_unpackMantissa Format.binary64
    pattern).symm⟩

section Fields

variable (sign : Sign) (biased : BitVec 11) (fraction : BitVec 52)

theorem toNat_fields : (fields sign biased fraction).toNat =
    sign.toBitVec.toNat * 2 ^ 63 + biased.toNat * 2 ^ 52 + fraction.toNat := by
  have joined : (fields sign biased fraction).toNat =
      (sign.toBitVec.toNat <<< 11 ||| biased.toNat) <<< 52 ||| fraction.toNat := by
    refine (BitVec.toNat_append _ _).trans ?_
    rw [BitVec.toNat_append]
  rw [joined, ← Nat.shiftLeft_add_eq_or_of_lt biased.isLt, ← Nat.shiftLeft_add_eq_or_of_lt fraction.isLt,
    Nat.shiftLeft_eq, Nat.shiftLeft_eq]
  omega

/-- What the fields of a pattern mean. -/
theorem ofPattern_fields : ofPattern (fields sign biased fraction).toNat =
    let negative := sign.toBitVec.toNat == 1
    if biased.toNat = 2047 then if fraction.toNat = 0 then .infinite negative else .nan
    else if biased.toNat = 0 then .finite negative fraction.toNat leastExponent
    else .finite negative (binade + fraction.toNat) (biased.toNat - 1075) := by
  have signBound := sign.toBitVec.isLt
  have biasedBound := biased.isLt
  have fractionBound := fraction.isLt
  have top : (fields sign biased fraction).toNat >>> 63 % 2 = sign.toBitVec.toNat := by
    rw [toNat_fields, Nat.shiftRight_eq_div_pow]
    omega
  have middle : (fields sign biased fraction).toNat / binade % 2048 = biased.toNat := by
    rw [toNat_fields, binade_eq]
    omega
  have bottom : (fields sign biased fraction).toNat % binade = fraction.toNat := by
    rw [toNat_fields, binade_eq]
    omega
  unfold ofPattern
  simp only [top, middle, bottom]

/-- The fields of a finite double make up a double. -/
theorem valid_fields {biased : BitVec 11} (finite : biased ≠ -1#11) :
    Format.binary64.Valid (fields sign biased fraction) := by
  refine ⟨fun full => absurd ?_ finite⟩
  rwa [UnpackedFloat.unpackExponent_packComponents] at full

theorem unpack_fields_neg {biased : BitVec 11} (finite : biased ≠ -1#11) :
    UnpackedFloat.unpack Format.binary64 (fields (-sign) biased fraction) =
      (UnpackedFloat.unpack Format.binary64 (fields sign biased fraction)).neg := by
  unfold UnpackedFloat.unpack
  simp only [UnpackedFloat.unpackSign_packComponents, UnpackedFloat.unpackExponent_packComponents,
    UnpackedFloat.unpackMantissa_packComponents, fields, Sign.ofBitVec_toBitVec]
  rw [if_neg finite, if_neg finite]
  split_ifs <;> rfl

end Fields

section Floats

variable {x : Float} {sign : Sign} {biased : BitVec 11} {fraction : BitVec 52}

/-- Negation changes the sign of a finite double and nothing else. -/
theorem toBitVec_neg (bits : x.toBits.toBitVec = fields sign biased fraction) (finite : biased ≠ -1#11) :
    (-x).toBits.toBitVec = fields (-sign) biased fraction := by
  change UnpackedFloat.pack Format.binary64 (UnpackedFloat.unpack Format.binary64 x.toBits.toBitVec).neg = _
  rw [bits, ← unpack_fields_neg sign fraction finite]
  exact UnpackedFloat.pack_unpack_of_valid (valid_fields (-sign) fraction finite)

theorem isFinite_iff (bits : x.toBits.toBitVec = fields sign biased fraction) :
    x.isFinite = true ↔ biased ≠ -1#11 := by
  change (UnpackedFloat.unpack Format.binary64 x.toBits.toBitVec).isFinite = true ↔ _
  rw [bits]
  unfold UnpackedFloat.unpack
  simp only [UnpackedFloat.unpackExponent_packComponents, UnpackedFloat.unpackMantissa_packComponents, fields]
  split_ifs with full
  · exact ⟨nofun, fun finite => absurd full finite⟩
  · exact ⟨nofun, fun finite => absurd full finite⟩
  · exact ⟨fun _ => full, fun _ => rfl⟩
  · exact ⟨fun _ => full, fun _ => rfl⟩
  · exact ⟨fun _ => full, fun _ => rfl⟩

theorem toNat_ne_of_finite (finite : biased ≠ -1#11) : biased.toNat ≠ 2047 :=
  fun full => finite (BitVec.eq_of_toNat_eq full)

/-- A finite double has a significand and an exponent. -/
theorem exists_finite (finite : x.isFinite = true) :
    ∃ negative significand exponent, ofFloat x = .finite negative significand exponent := by
  obtain ⟨sign, biased, fraction, bits⟩ := exists_fields x.toBits.toBitVec
  have below := toNat_ne_of_finite ((isFinite_iff bits).mp finite)
  rw [ofFloat, ← UInt64.toNat_toBitVec, bits, ofPattern_fields]
  dsimp only
  rw [if_neg below]
  split_ifs
  · exact ⟨_, _, _, rfl⟩
  · exact ⟨_, _, _, rfl⟩

/-- A double with a significand and an exponent is finite. -/
theorem isFinite_of_ofFloat {negative : Bool} {significand : Nat} {exponent : Int}
    (view : ofFloat x = .finite negative significand exponent) : x.isFinite = true := by
  obtain ⟨sign, biased, fraction, bits⟩ := exists_fields x.toBits.toBitVec
  rw [isFinite_iff bits]
  rintro rfl
  rw [ofFloat, ← UInt64.toNat_toBitVec, bits, ofPattern_fields] at view
  dsimp only at view
  rw [if_pos (by decide)] at view
  split_ifs at view

/-- On a finite double negation undoes itself. -/
theorem neg_neg_of_isFinite (finite : x.isFinite = true) : - -x = x := by
  obtain ⟨sign, biased, fraction, bits⟩ := exists_fields x.toBits.toBitVec
  have below := (isFinite_iff bits).mp finite
  have twice : (- -x).toBits.toBitVec = fields (- -sign) biased fraction :=
    toBitVec_neg (toBitVec_neg bits below) below
  have same : - -sign = sign := by cases sign <;> rfl
  rw [same, ← bits] at twice
  exact eq_of_toBits_toNat (congrArg BitVec.toNat twice)

/-- The negated double has the other sign and the same significand and exponent. -/
theorem ofFloat_neg {negative : Bool} {significand : Nat} {exponent : Int}
    (view : ofFloat x = .finite negative significand exponent) :
    ofFloat (-x) = .finite (!negative) significand exponent := by
  obtain ⟨sign, biased, fraction, bits⟩ := exists_fields x.toBits.toBitVec
  have below := (isFinite_iff bits).mp (isFinite_of_ofFloat view)
  rw [ofFloat, ← UInt64.toNat_toBitVec, bits, ofPattern_fields] at view
  have other : ((-sign).toBitVec.toNat == 1) = !(sign.toBitVec.toNat == 1) := by cases sign <;> rfl
  rw [ofFloat, ← UInt64.toNat_toBitVec, toBitVec_neg bits below, ofPattern_fields]
  dsimp only at view ⊢
  rw [if_neg (toNat_ne_of_finite below), other] at *
  split_ifs at view ⊢ with lowest
  · cases view
    rfl
  · cases view
    rfl

/-- Whether the sign bit of a double is set. -/
def hasSign (x : Float) : Bool := x.toBits.toNat >>> 63 % 2 == 1

/-- The sign of a finite double is its sign bit. -/
theorem hasSign_eq {negative : Bool} {significand : Nat} {exponent : Int}
    (view : ofFloat x = .finite negative significand exponent) : hasSign x = negative := by
  unfold ofFloat ofPattern at view
  dsimp only at view
  rw [hasSign]
  split_ifs at view
  · exact (Binary64.finite.inj view).1
  · exact (Binary64.finite.inj view).1

/-- A double below the patterns with a sign bit has none. -/
theorem hasSign_of_unsigned (unsigned : x.toBits.toNat < 1 <<< 63) : hasSign x = false := by
  rw [hasSign, Nat.shiftRight_eq_div_pow, Nat.div_eq_of_lt]
  · rfl
  · rwa [Nat.one_shiftLeft] at unsigned

/-- The double beyond all numbers. -/
def infinity : Float := Float.ofBits (UInt64.ofNat infinitePattern)

/-- A double without a sign that can be compared with numbers is infinity, or it is finite. -/
theorem infinite_or_finite {v : ℚ} (unsigned : x.toBits.toNat < 1 <<< 63) (worth : worth? (ofFloat x) = some v) :
    (x = infinity ∧ ofFloat x = .infinite false) ∨
      ∃ significand exponent, ofFloat x = .finite false significand exponent := by
  rcases (pattern_le_of_worth? unsigned worth).eq_or_lt with top | below
  · refine .inl ⟨eq_of_toBits_toNat ?_, ?_⟩
    · rw [top, infinity, toBits_ofBits le_rfl]
    · rw [ofFloat, top]
      decide
  · have parts : x.toBits.toNat / binade * binade + x.toBits.toNat % binade = x.toBits.toNat :=
      Nat.div_add_mod' _ _
    have place : x.toBits.toNat / binade < 2047 := by
      rw [infinitePattern, binade_eq] at below
      rw [binade_eq]
      omega
    have fraction : x.toBits.toNat % binade < binade := Nat.mod_lt _ (by rw [binade_eq]; norm_num)
    refine .inr ?_
    rw [ofFloat, ← parts, ofPattern_eq fraction place.le, if_neg place.ne]
    split_ifs
    · exact ⟨_, _, rfl⟩
    · exact ⟨_, _, rfl⟩

/-- Where a finite double without a sign has its place among the powers of two. -/
theorem place_of_ofFloat {m : Nat} {e : Int} (view : ofFloat x = .finite false m e) :
    ∃ place : Nat, e = place - 1074 ∧ x.toBits.toNat = place * binade + m ∧ m < 2 * binade ∧
      (place = 0 ∨ binade ≤ m) ∧ place * binade + m ≤ infinitePattern := by
  obtain ⟨sign, biased, fraction, bits⟩ := exists_fields x.toBits.toBitVec
  have parts : x.toBits.toNat = sign.toBitVec.toNat * 2 ^ 63 + biased.toNat * 2 ^ 52 + fraction.toNat := by
    rw [← UInt64.toNat_toBitVec, bits, toNat_fields]
  have signBound := sign.toBitVec.isLt
  have biasedBound := biased.isLt
  have fractionBound := fraction.isLt
  rw [ofFloat, ← UInt64.toNat_toBitVec, bits, ofPattern_fields] at view
  dsimp only at view
  rw [infinitePattern, binade_eq]
  have noSign : sign.toBitVec.toNat = 0 := by
    have unsigned : (sign.toBitVec.toNat == 1) = false := by
      split_ifs at view
      · exact (Binary64.finite.inj view).1
      · exact (Binary64.finite.inj view).1
    rw [beq_eq_false_iff_ne] at unsigned
    omega
  rw [noSign, Nat.zero_mul, Nat.zero_add] at parts
  split_ifs at view with _ _ lowest
  · obtain ⟨-, rfl, rfl⟩ := Binary64.finite.inj view
    rw [lowest] at parts
    refine ⟨0, rfl, parts, ?_, .inl rfl, ?_⟩ <;> omega
  · obtain ⟨-, rfl, rfl⟩ := Binary64.finite.inj view
    obtain ⟨place, placed⟩ := Nat.exists_eq_succ_of_ne_zero lowest
    rw [binade_eq]
    rw [placed] at parts ⊢
    rw [Nat.succ_mul, Nat.add_assoc] at parts
    refine ⟨place, ?_, parts, ?_, .inr ?_, ?_⟩ <;> omega

end Floats

end Binary64

end ScopedScript
