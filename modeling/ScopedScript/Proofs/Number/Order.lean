import ScopedScript.Proofs.Number.Rounding
namespace ScopedScript

/-!
# Only one double is nearest

Without a sign, a double is the larger the larger its bit pattern is.  If two doubles were equally near to a
number, their patterns would both be even, so a third pattern would lie between them, and its double would
be nearer than both.
-/

namespace Binary64

/-- A pattern splits into the place of a power of two and a factor of at most fifty-three binary digits. -/
theorem exists_place (pattern : Nat) :
    ∃ place m, pattern = place * binade + m ∧ m < 2 * binade ∧ (place = 0 ∨ binade ≤ m) := by
  have least : 0 < binade := by rw [binade_eq]; norm_num
  have split : pattern / binade * binade + pattern % binade = pattern := Nat.div_add_mod' pattern binade
  have below : pattern % binade < binade := Nat.mod_lt pattern least
  cases quotient : pattern / binade with
  | zero =>
      rw [quotient, Nat.zero_mul, Nat.zero_add] at split
      refine ⟨0, pattern, ?_, ?_, .inl rfl⟩ <;> omega
  | succ place =>
      rw [quotient, Nat.add_mul, Nat.one_mul] at split
      refine ⟨place, binade + pattern % binade, ?_, ?_, .inr ?_⟩ <;> omega

/-- The next pattern stands for a larger number. -/
theorem worth?_succ {pattern : Nat} (finite : pattern < infinitePattern) :
    ∃ v w, worth? (ofPattern pattern) = some v ∧ worth? (ofPattern (pattern + 1)) = some w ∧ v < w := by
  obtain ⟨place, m, rfl, bounded, normal⟩ := exists_place pattern
  have small : place * binade + (m + 1) ≤ infinitePattern := by
    rw [← Nat.add_assoc]
    exact Nat.succ_le_of_lt finite
  have tall : place = 0 ∨ binade ≤ m + 1 := normal.imp_right Nat.le_succ_of_le
  have bounded_succ : m + 1 ≤ 2 * binade := bounded
  have next := worth?_ofPattern bounded_succ tall small
  rw [← Nat.add_assoc] at next
  refine ⟨_, _, worth?_ofPattern bounded.le normal finite.le, next, ?_⟩
  gcongr
  exact m.lt_succ_self

/-- A larger pattern stands for a larger number. -/
theorem worth_lt_of_lt {p q : Nat} {v w : ℚ} (less : p < q) (small : q ≤ infinitePattern)
    (first : worth? (ofPattern p) = some v) (second : worth? (ofPattern q) = some w) : v < w := by
  induction q, less using Nat.le_induction generalizing w with
  | base =>
      obtain ⟨_, _, here, next, increases⟩ := worth?_succ small
      rw [first, Option.some_inj] at here
      rw [second, Option.some_inj] at next
      rwa [here, next]
  | succ q less inductionHypothesis =>
      obtain ⟨_, _, here, next, increases⟩ := worth?_succ small
      rw [second, Option.some_inj] at next
      rw [next]
      exact (inductionHypothesis (Nat.le_of_succ_le small) here).trans increases

/-- Only the patterns up to that of infinity stand for a number, among those without a sign. -/
theorem pattern_le_of_worth? {pattern : Nat} {v : ℚ} (unsigned : pattern < 1 <<< 63)
    (worth : worth? (ofPattern pattern) = some v) : pattern ≤ infinitePattern := by
  have split : pattern / binade * binade + pattern % binade = pattern := Nat.div_add_mod' pattern binade
  have below : pattern % binade < binade := Nat.mod_lt pattern (by rw [binade_eq]; norm_num)
  have small : pattern / binade ≤ 2047 := by
    rw [Nat.one_shiftLeft] at unsigned
    rw [binade_eq]
    omega
  rw [← split, ofPattern_eq below small] at worth
  rw [infinitePattern, ← split]
  split_ifs at worth with top nothing bottom
  · rw [top, nothing, Nat.add_zero]
  · cases worth
  · rw [bottom, Nat.zero_mul, Nat.zero_add]
    omega
  · have : (pattern / binade + 1) * binade ≤ 2047 * binade := Nat.mul_le_mul_right _ (by omega)
    rw [Nat.add_mul, Nat.one_mul] at this
    omega

theorem eq_of_toBits_toNat {x y : Float} (same : x.toBits.toNat = y.toBits.toNat) : x = y := by
  rw [← Float.ofBits_toBits x, ← Float.ofBits_toBits y, UInt64.toNat_inj.mp same]

/-- Between two doubles that are equally near to a number and both end in a zero bit lies one that is
nearer. -/
theorem exists_nearer {p q : Nat} {v w target : ℚ} (less : p < q) (small : q ≤ infinitePattern)
    (evenFirst : p % 2 = 0) (evenSecond : q % 2 = 0) (first : worth? (ofPattern p) = some v)
    (second : worth? (ofPattern q) = some w) (tie : |w - target| = |v - target|) :
    ∃ y u, worth? (ofFloat y) = some u ∧ |u - target| < |v - target| := by
  have between : p + 1 < q := by omega
  obtain ⟨_, u, _, next, _⟩ := worth?_succ (lt_of_lt_of_le less small)
  have above : v < u := worth_lt_of_lt p.lt_succ_self (between.le.trans small) first next
  have below : u < w := worth_lt_of_lt between small next second
  refine ⟨Float.ofBits (UInt64.ofNat (p + 1)), u, ?_, ?_⟩
  · rw [ofFloat, toBits_ofBits (between.le.trans small), next]
  · -- the number lies half way between the two, so it is less far away from what lies between them
    have half : 2 * target = v + w := by
      rcases abs_eq_abs.mp tie with same | opposite
      · linarith
      · linarith
    rw [abs_of_nonpos (by linarith : v - target ≤ 0), abs_lt]
    constructor <;> linarith

/-- There is only one nearest double. -/
theorem IsNearest.unique {x y : Float} {target : ℚ} (first : IsNearest x target)
    (second : IsNearest y target) : x = y := by
  obtain ⟨v, worthFirst, closestFirst⟩ := first.closest
  obtain ⟨w, worthSecond, closestSecond⟩ := second.closest
  obtain ⟨leFirst, tieFirst⟩ := closestFirst y w worthSecond
  obtain ⟨leSecond, tieSecond⟩ := closestSecond x v worthFirst
  have tie : |w - target| = |v - target| := le_antisymm leSecond leFirst
  have smallFirst := pattern_le_of_worth? first.unsigned worthFirst
  have smallSecond := pattern_le_of_worth? second.unsigned worthSecond
  apply eq_of_toBits_toNat
  by_contra different
  rcases Nat.lt_or_gt_of_ne different with less | less
  · have distinct := worth_lt_of_lt less smallSecond worthFirst worthSecond
    obtain ⟨z, u, worth, nearer⟩ := exists_nearer less smallSecond ((tieFirst tie).resolve_left distinct.ne')
      ((tieSecond tie.symm).resolve_left distinct.ne) worthFirst worthSecond tie
    exact absurd (closestFirst z u worth).1 (not_le.mpr nearer)
  · have distinct := worth_lt_of_lt less smallFirst worthSecond worthFirst
    obtain ⟨z, u, worth, nearer⟩ := exists_nearer less smallFirst ((tieSecond tie.symm).resolve_left distinct.ne')
      ((tieFirst tie).resolve_left distinct.ne) worthSecond worthFirst tie.symm
    exact absurd (closestSecond z u worth).1 (not_le.mpr nearer)

end Binary64

end ScopedScript
