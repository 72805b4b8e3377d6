import BasicToSharp.Number.Binary64
import Mathlib.Tactic.Ring
import Mathlib.Tactic.Positivity
import Mathlib.Algebra.Order.Ring.Int

/-!
# Integers rounded to double precision

A double of an integer is again an integer as long as it is finite: the nearest multiple of the
power of two that leaves 53 significant bits. Doubles of integers are in order as these integers
are. Rounding keeps the order of integers, but it can bring two of them together, unless both
are within `2 ^ 53`, where it changes none.
-/

namespace BasicToSharp.Number

/-! ## The nearest multiple -/

section DivideToEven

variable {numerator other denominator : Nat}

/-- Rounding a quotient never goes below its whole part. -/
theorem divideToEven_lower (numerator denominator : Nat) :
    numerator / denominator ≤ divideToEven numerator denominator := by
  unfold divideToEven
  grind

/-- Rounding a quotient goes at most one above its whole part. -/
theorem divideToEven_upper (numerator denominator : Nat) :
    divideToEven numerator denominator ≤ numerator / denominator + 1 := by
  unfold divideToEven
  grind

/-- A multiple stays as it is. -/
theorem divideToEven_mul (positive : 0 < denominator) (quotient : Nat) :
    divideToEven (quotient * denominator) denominator = quotient := by
  simp [divideToEven, positive]

/-- A larger numerator is rounded to no less: its quotient is larger, or its remainder is. -/
theorem divideToEven_mono (below : numerator ≤ other) (denominator : Nat) :
    divideToEven numerator denominator ≤ divideToEven other denominator := by
  have quotients : numerator / denominator ≤ other / denominator := Nat.div_le_div_right below
  rcases Nat.lt_or_eq_of_le quotients with apart | same
  · calc divideToEven numerator denominator
      _ ≤ numerator / denominator + 1 := divideToEven_upper numerator denominator
      _ ≤ other / denominator := apart
      _ ≤ divideToEven other denominator := divideToEven_lower other denominator
  · have remainders : numerator % denominator ≤ other % denominator := by
      have lower := Nat.div_add_mod numerator denominator
      have upper := Nat.div_add_mod other denominator
      rw [same] at lower
      omega
    simp only [divideToEven, same]
    grind

end DivideToEven

/-! ## Rounding to 53 bits -/

/-- The distance of the doubles around a natural number, as far as they are whole. -/
def gridStep (magnitude : Nat) : Nat := 2 ^ (magnitude.log2 - 52)

/-- The double nearest to a natural number, which is whole. -/
def nearestMagnitude (magnitude : Nat) : Nat :=
  divideToEven magnitude (gridStep magnitude) * gridStep magnitude

/-- The double nearest to an integer, which is whole. -/
def nearestDouble (value : Int) : Int :=
  if value < 0 then -nearestMagnitude value.natAbs else nearestMagnitude value.natAbs

/-- Neighbouring doubles are apart. -/
theorem gridStep_pos (magnitude : Nat) : 0 < gridStep magnitude := Nat.two_pow_pos _

/-- Integers below two to the 53rd are doubles themselves. -/
theorem nearestMagnitude_of_lt {magnitude : Nat} (small : magnitude < 2 ^ 53) :
    nearestMagnitude magnitude = magnitude := by
  have fine : gridStep magnitude = 1 := by
    by_cases zero : magnitude = 0
    · rw [zero]
      rfl
    · have bits : magnitude.log2 < 53 := (Nat.log2_lt zero).mpr small
      rw [gridStep, show magnitude.log2 - 52 = 0 by omega, Nat.pow_zero]
  rw [nearestMagnitude, fine, Nat.mul_one]
  simpa using divideToEven_mul Nat.one_pos magnitude

/-- Rounding does not leave the powers of two between which a number lies. -/
theorem nearestMagnitude_between {magnitude : Nat} (nonzero : magnitude ≠ 0) :
    2 ^ magnitude.log2 ≤ nearestMagnitude magnitude ∧
      nearestMagnitude magnitude ≤ 2 ^ (magnitude.log2 + 1) := by
  have lower : 2 ^ magnitude.log2 ≤ magnitude := Nat.log2_self_le nonzero
  have upper : magnitude ≤ 2 ^ (magnitude.log2 + 1) := Nat.lt_log2_self.le
  by_cases small : magnitude < 2 ^ 53
  · rw [nearestMagnitude_of_lt small]
    exact ⟨lower, upper⟩
  · have bits : 52 ≤ magnitude.log2 := (Nat.le_log2 nonzero).mpr (by omega)
    have positive := gridStep_pos magnitude
    have whole : 2 ^ magnitude.log2 = 2 ^ 52 * gridStep magnitude := by
      rw [gridStep, ← Nat.pow_add, Nat.add_sub_cancel' bits]
    have twice : 2 ^ (magnitude.log2 + 1) = 2 ^ 53 * gridStep magnitude := by
      rw [Nat.pow_succ, whole]
      ring
    -- Both powers are multiples of the grid, and the multiples in between stay in between.
    rw [whole] at lower ⊢
    rw [twice] at upper ⊢
    have fromBelow := divideToEven_mono lower (gridStep magnitude)
    have fromAbove := divideToEven_mono upper (gridStep magnitude)
    rw [divideToEven_mul positive] at fromBelow fromAbove
    exact ⟨Nat.mul_le_mul_right _ fromBelow, Nat.mul_le_mul_right _ fromAbove⟩

/-- Rounding keeps the order of integers. -/
theorem nearestMagnitude_mono {magnitude other : Nat} (below : magnitude ≤ other) :
    nearestMagnitude magnitude ≤ nearestMagnitude other := by
  by_cases zero : magnitude = 0
  · rw [zero, nearestMagnitude_of_lt (by decide)]
    exact Nat.zero_le _
  · have bits : magnitude.log2 ≤ other.log2 :=
      (Nat.le_log2 (by omega)).mpr ((Nat.log2_self_le zero).trans below)
    rcases Nat.lt_or_eq_of_le bits with apart | same
    · calc nearestMagnitude magnitude
        _ ≤ 2 ^ (magnitude.log2 + 1) := (nearestMagnitude_between zero).2
        _ ≤ 2 ^ other.log2 := Nat.pow_le_pow_right (by decide) apart
        _ ≤ nearestMagnitude other := (nearestMagnitude_between (by omega)).1
    · have grid : gridStep magnitude = gridStep other := by rw [gridStep, gridStep, same]
      rw [nearestMagnitude, nearestMagnitude, grid]
      exact Nat.mul_le_mul_right _ (divideToEven_mono below _)

/-- Rounding keeps the order of integers, though two of them may become one. -/
theorem nearestDouble_mono {value other : Int} (below : value ≤ other) :
    nearestDouble value ≤ nearestDouble other := by
  unfold nearestDouble
  by_cases otherNegative : other < 0
  · have farther := nearestMagnitude_mono (show other.natAbs ≤ value.natAbs by omega)
    rw [if_pos (by omega), if_pos otherNegative]
    omega
  · rw [if_neg otherNegative]
    by_cases negative : value < 0
    · rw [if_pos negative]
      omega
    · have nearer := nearestMagnitude_mono (show value.natAbs ≤ other.natAbs by omega)
      rw [if_neg negative]
      omega

/-- Integers within `2 ^ 53` are doubles themselves. -/
theorem nearestDouble_of_le {value : Int} (small : value.natAbs ≤ 2 ^ 53) :
    nearestDouble value = value := by
  have same : nearestMagnitude value.natAbs = value.natAbs := by
    rcases Nat.lt_or_eq_of_le small with below | limit
    · exact nearestMagnitude_of_lt below
    · rw [limit]
      decide +kernel
  rw [nearestDouble, same]
  split <;> omega

/-! ## Doubles of integers -/

/-- The grid of a positive integer needs no correction. -/
theorem gridExponent_one {magnitude : Nat} (nonzero : magnitude ≠ 0) :
    gridExponent magnitude 1 = magnitude.log2 - 52 := by
  have enough : ¬ magnitude * 2 ^ (-((magnitude.log2 : Int) - 52)).toNat <
      2 ^ 52 * 2 ^ ((magnitude.log2 : Int) - 52).toNat := by
    rw [Nat.not_lt]
    calc 2 ^ 52 * 2 ^ ((magnitude.log2 : Int) - 52).toNat
      _ = 2 ^ magnitude.log2 * 2 ^ (-((magnitude.log2 : Int) - 52)).toNat := by
        rw [← Nat.pow_add, ← Nat.pow_add]
        congr 1
        omega
      _ ≤ magnitude * 2 ^ (-((magnitude.log2 : Int) - 52)).toNat :=
        Nat.mul_le_mul_right _ (Nat.log2_self_le nonzero)
  have one : Nat.log2 1 = 0 := by decide
  unfold gridExponent scaleFraction
  simp only [one, Nat.pow_eq, Nat.one_mul, Nat.cast_zero, sub_zero]
  rw [if_neg enough]
  omega

/-- The mantissa on that grid is the nearest whole number, or a multiple of it where the grid is
finer than the integers. -/
theorem scaled_mantissa (magnitude : Nat) :
    divideToEven (magnitude * 2 ^ (-((magnitude.log2 : Int) - 52)).toNat)
        (2 ^ ((magnitude.log2 : Int) - 52).toNat) * 2 ^ magnitude.log2 =
      nearestMagnitude magnitude * 2 ^ 52 := by
  rcases Nat.lt_or_ge magnitude.log2 52 with fine | coarse
  · have small : magnitude < 2 ^ 53 :=
      Nat.lt_log2_self.trans_le (Nat.pow_le_pow_right (by decide) (by omega))
    rw [show ((magnitude.log2 : Int) - 52).toNat = 0 by omega,
      show (-((magnitude.log2 : Int) - 52)).toNat = 52 - magnitude.log2 by omega, Nat.pow_zero,
      nearestMagnitude_of_lt small]
    have exact := divideToEven_mul Nat.one_pos (magnitude * 2 ^ (52 - magnitude.log2))
    rw [Nat.mul_one] at exact
    rw [exact, Nat.mul_assoc, ← Nat.pow_add, Nat.sub_add_cancel fine.le]
  · rw [show ((magnitude.log2 : Int) - 52).toNat = magnitude.log2 - 52 by omega,
      show (-((magnitude.log2 : Int) - 52)).toNat = 0 by omega, Nat.pow_zero, Nat.mul_one,
      nearestMagnitude, gridStep, Nat.mul_assoc, ← Nat.pow_add, Nat.sub_add_cancel coarse]

/-- The double of an integer of at most 64 bits, as the whole number it is. Exponents are
counted from that of the finest grid, so that only natural powers stand here. -/
theorem Binary64.ofInt_finite {value : Int} (small : value.natAbs < 2 ^ 64) :
    ∃ mantissa exponent, Binary64.ofInt value = .finite mantissa exponent ∧ -52 ≤ exponent ∧
      mantissa * 2 ^ (exponent + 52).toNat = nearestDouble value * 2 ^ 52 := by
  by_cases zero : value = 0
  · exact ⟨0, 0, by rw [zero]; rfl, by decide, by rw [zero]; decide +kernel⟩
  have nonzero : value.natAbs ≠ 0 := by omega
  have scaled := scaled_mantissa value.natAbs
  have bits : value.natAbs.log2 < 64 := (Nat.log2_lt nonzero).mpr small
  have above := (nearestMagnitude_between nonzero).2
  simp only [ofInt, ofFraction, if_neg nonzero, gridExponent_one nonzero, scaleFraction,
    Nat.pow_eq, Nat.one_mul]
  generalize divideToEven _ _ = mantissa at scaled ⊢
  have short : mantissa ≤ 2 ^ 53 := by
    have positive : 0 < 2 ^ value.natAbs.log2 := Nat.two_pow_pos _
    refine Nat.le_of_mul_le_mul_right ?_ positive
    rw [scaled]
    calc nearestMagnitude value.natAbs * 2 ^ 52
      _ ≤ 2 ^ (value.natAbs.log2 + 1) * 2 ^ 52 := Nat.mul_le_mul_right _ above
      _ = 2 ^ 53 * 2 ^ value.natAbs.log2 := by ring
  have finite : ¬ 1024 ≤ (mantissa.log2 : Int) + ((value.natAbs.log2 : Int) - 52) := by
    have mantissaBits : mantissa.log2 < 54 := by
      by_cases none : mantissa = 0
      · rw [none]
        decide
      · exact (Nat.log2_lt none).mpr (by omega)
    omega
  rw [if_neg finite]
  refine ⟨_, _, rfl, by omega, ?_⟩
  rw [show ((value.natAbs.log2 : Int) - 52 + 52).toNat = value.natAbs.log2 by omega]
  have scaledInt : (mantissa : Int) * 2 ^ value.natAbs.log2 =
      nearestMagnitude value.natAbs * 2 ^ 52 := by exact_mod_cast scaled
  by_cases negative : value < 0
  · simp only [nearestDouble, negative, decide_true, if_true, neg_mul, scaledInt]
  · simp only [nearestDouble, negative, decide_false, Bool.false_eq_true, if_false, scaledInt]

/-- Doubles of integers are in order as the integers nearest to them are. -/
theorem Binary64.ofInt_lt_ofInt {value other : Int} (small : value.natAbs < 2 ^ 64)
    (otherSmall : other.natAbs < 2 ^ 64) :
    (Binary64.ofInt value).lt (.ofInt other) = true ↔
      nearestDouble value < nearestDouble other := by
  obtain ⟨mantissa, exponent, is, above, whole⟩ := ofInt_finite small
  obtain ⟨mantissa', exponent', is', above', whole'⟩ := ofInt_finite otherSmall
  have positive : (0 : Int) < 2 ^ (min exponent exponent' + 52).toNat := by positivity
  have positive' : (0 : Int) < 2 ^ 52 := by positivity
  have scale : ∀ (factor shift : Int), min exponent exponent' ≤ shift →
      factor * 2 ^ (shift - min exponent exponent').toNat *
        2 ^ (min exponent exponent' + 52).toNat = factor * 2 ^ (shift + 52).toNat := by
    intro factor shift atLeast
    rw [mul_assoc, ← pow_add]
    congr 2
    omega
  rw [is, is', Binary64.lt, decide_eq_true_eq]
  calc mantissa * 2 ^ (exponent - min exponent exponent').toNat <
        mantissa' * 2 ^ (exponent' - min exponent exponent').toNat
    _ ↔ mantissa * 2 ^ (exponent + 52).toNat < mantissa' * 2 ^ (exponent' + 52).toNat := by
      rw [← scale mantissa exponent (min_le_left _ _),
        ← scale mantissa' exponent' (min_le_right _ _)]
      exact (mul_lt_mul_iff_left₀ positive).symm
    _ ↔ nearestDouble value < nearestDouble other := by
      rw [whole, whole']
      exact mul_lt_mul_iff_left₀ positive'

end BasicToSharp.Number
