import Calculator.Proofs.FiniteRange
import Mathlib.Algebra.Order.Field.Power
import Mathlib.Algebra.Order.Field.Rat
import Mathlib.Tactic.FieldSimp
import Mathlib.Tactic.NormNum

/-!
# Decimals as rational numbers

A decimal denotes a rational number. Whether it is read at all depends only on that number:
exactly the decimals below the end of the finite range are read as numbers, whatever their
digits and their exponents are. The guards never stand in the way, since a coefficient that is
not zero brings a decimal with a large exponent out of the range, and a negligible decimal is
far below half a unit.
-/

namespace Calculator.Number.Decimal

/-- The rational number that a decimal denotes. -/
def toRat (number : Decimal) : ℚ :=
  number.coefficient * (10 : ℚ) ^ number.exponent

/-- A decimal is the quotient of its numerator and its denominator. -/
theorem toRat_eq_div (number : Decimal) :
    number.toRat = (number.numerator : ℚ) / (number.denominator : ℚ) := by
  have hten : (10 : ℚ) ≠ 0 := by norm_num
  have hsplit : number.exponent = (number.exponent.toNat : ℤ) - ((-number.exponent).toNat : ℤ) :=
    (Int.toNat_sub_toNat_neg number.exponent).symm
  rw [toRat, hsplit, zpow_sub₀ hten, zpow_natCast, zpow_natCast, ← mul_div_assoc]
  simp [numerator, denominator]

/-- A decimal lies below a natural number if its numerator does not reach as many times its
denominator. -/
theorem numerator_lt {number : Decimal} {bound : ℕ} (h : number.toRat < bound) :
    number.numerator < bound * number.denominator := by
  have hpos : (0 : ℚ) < number.denominator := by exact_mod_cast number.denominator_pos
  rw [toRat_eq_div, div_lt_iff₀ hpos] at h
  exact_mod_cast h

/-- A coefficient that is not zero makes a decimal at least its power of ten. -/
theorem pow_le_toRat {number : Decimal} (h : number.coefficient ≠ 0) :
    (10 : ℚ) ^ number.exponent ≤ number.toRat := by
  have hone : (1 : ℚ) ≤ number.coefficient := by
    exact_mod_cast Nat.one_le_iff_ne_zero.2 h
  have hpos : (0 : ℚ) < (10 : ℚ) ^ number.exponent := zpow_pos (by norm_num) _
  exact le_mul_of_one_le_left hpos.le hone

/-- The finite range ends before the first power of ten with 310 digits. -/
theorem finiteRange_lt_pow : (Binary64.finiteRange : ℚ) < (10 : ℚ) ^ (309 : ℤ) := by
  exact_mod_cast Binary64.finiteRange_bounds.2.2

/-- A decimal within the finite range whose coefficient is not zero has a small exponent. -/
theorem exponent_le {number : Decimal} (hzero : number.coefficient ≠ 0)
    (h : number.toRat < Binary64.finiteRange) : number.exponent ≤ 308 := by
  have hpow := ((pow_le_toRat hzero).trans_lt h).trans finiteRange_lt_pow
  have hlt := (zpow_lt_zpow_iff_right₀ (by norm_num : (1 : ℚ) < 10)).1 hpow
  omega

/-- A decimal within the finite range is read as a number. -/
theorem toFloat?_isSome {number : Decimal} (h : number.toRat < Binary64.finiteRange) :
    ∃ value, number.toFloat? = some value := by
  unfold toFloat?
  by_cases hnegligible : number.isNegligible = true
  · exact ⟨0.0, if_pos hnegligible⟩
  · have hzero : number.coefficient ≠ 0 := by
      intro hzero
      simp [isNegligible, hzero] at hnegligible
    have hexponent := exponent_le hzero h
    have hpattern := Binary64.nearestPattern_lt number.denominator_pos (numerator_lt h)
    rw [if_neg hnegligible, if_neg (Int.not_lt.2 hexponent), Binary64.nearest?,
      if_pos hpattern]
    exact ⟨_, rfl⟩

/-- A negligible decimal is far below half a unit. -/
theorem toRat_lt_of_isNegligible {number : Decimal} (h : number.isNegligible = true) :
    number.toRat < (10 : ℚ) ^ (-325 : ℤ) := by
  obtain hzero | hsmall : number.coefficient = 0 ∨
      number.exponent < -(number.coefficient.log2 + 325) := by simpa [isNegligible] using h
  · rw [toRat, hzero, Nat.cast_zero, zero_mul]
    exact zpow_pos (by norm_num) _
  · have hlog : number.coefficient < 10 ^ (number.coefficient.log2 + 1) :=
      Nat.lt_log2_self.trans_le (Nat.pow_le_pow_left (by decide) _)
    have hpow : (0 : ℚ) < (10 : ℚ) ^ number.exponent := zpow_pos (by norm_num) _
    have hcoefficient : (number.coefficient : ℚ) <
        (10 : ℚ) ^ ((number.coefficient.log2 + 1 : ℕ) : ℤ) := by exact_mod_cast hlog
    calc number.toRat
        < (10 : ℚ) ^ ((number.coefficient.log2 + 1 : ℕ) : ℤ) * (10 : ℚ) ^ number.exponent :=
          mul_lt_mul_of_pos_right hcoefficient hpow
      _ = (10 : ℚ) ^ (((number.coefficient.log2 + 1 : ℕ) : ℤ) + number.exponent) :=
          (zpow_add₀ (by norm_num) _ _).symm
      _ ≤ (10 : ℚ) ^ (-325 : ℤ) := zpow_le_zpow_right₀ (by norm_num) (by push_cast; omega)

/-- A decimal is read as a number exactly if it lies within the finite range. -/
theorem toFloat?_eq_none_iff {number : Decimal} :
    number.toFloat? = none ↔ (Binary64.finiteRange : ℚ) ≤ number.toRat := by
  constructor
  · intro hnone
    by_contra hlt
    obtain ⟨value, hvalue⟩ := toFloat?_isSome (not_le.1 hlt)
    rw [hvalue] at hnone
    cases hnone
  · intro h
    have hone : 1 ≤ Binary64.finiteRange := (Nat.zero_le _).trans_lt Binary64.finiteRange_bounds.1
    have hnegligible : ¬ number.isNegligible = true := by
      intro hnegligible
      have hsmall : (10 : ℚ) ^ (-325 : ℤ) ≤ 1 := zpow_le_one_of_nonpos₀ (by norm_num) (by decide)
      have hlt := (h.trans_lt (toRat_lt_of_isNegligible hnegligible)).trans_le hsmall
      exact absurd hone (Nat.not_le.2 (by exact_mod_cast hlt))
    have hnumerator : Binary64.finiteRange * number.denominator ≤ number.numerator := by
      have hpos : (0 : ℚ) < number.denominator := by exact_mod_cast number.denominator_pos
      rw [toRat_eq_div, le_div_iff₀ hpos] at h
      exact_mod_cast h
    have hpattern := Binary64.infinityPattern_le number.denominator_pos hnumerator
    unfold toFloat?
    rw [if_neg hnegligible, Binary64.nearest?, if_neg (Nat.not_lt.2 hpattern), ite_self]

end Calculator.Number.Decimal
