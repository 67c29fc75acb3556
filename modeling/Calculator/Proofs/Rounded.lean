import Calculator.Number.Leading
import Calculator.Proofs.DecimalValue

/-!
# Rounding to decimal places

The leading exponent of a positive quotient is the greatest power of ten that does not exceed
it. Rounding to a power of ten changes a quotient by at most half of that power, and rounding
to significant digits is rounding to the power at which the last of them stands, carry or not.
-/

namespace Calculator.Number

/-- A positive natural number lies between the powers of ten that its digits count. -/
theorem pow_digitCount_bounds {n : ℕ} (hn : 0 < n) :
    10 ^ (digitCount n - 1) ≤ n ∧ n < 10 ^ digitCount n := by
  have hpos : 0 < digitCount n := Nat.length_toDigits_pos
  constructor
  · rcases Nat.eq_zero_or_pos (digitCount n - 1) with hone | hmore
    · rw [hone]
      exact hn
    · by_contra hlow
      have hshort := (Nat.length_toDigits_le_iff (by decide) hmore).2 (Nat.lt_of_not_le hlow)
      change digitCount n ≤ digitCount n - 1 at hshort
      omega
  · exact (Nat.length_toDigits_le_iff (by decide) hpos).1 (Nat.le_refl _)

/-- A quotient that is not below one lies between the powers of ten that the digits of its
whole part count. -/
theorem div_bounds_of_le {n d : ℕ} (hd : 0 < d) (h : d ≤ n) :
    (10 : ℚ) ^ (digitCount (n / d) - 1) ≤ (n : ℚ) / d ∧
      (n : ℚ) / d < (10 : ℚ) ^ digitCount (n / d) := by
  have hd' : (0 : ℚ) < d := by exact_mod_cast hd
  obtain ⟨hlow, hhigh⟩ := pow_digitCount_bounds (Nat.div_pos h hd)
  rw [le_div_iff₀ hd', div_lt_iff₀ hd']
  constructor
  · have hmul : 10 ^ (digitCount (n / d) - 1) * d ≤ n := (Nat.le_div_iff_mul_le hd).1 hlow
    exact_mod_cast hmul
  · have hmul : n < 10 ^ digitCount (n / d) * d := (Nat.div_lt_iff_lt_mul hd).1 hhigh
    exact_mod_cast hmul

/-- A quotient below one lies between the powers of ten that the digits of its inverse, rounded
down from below, count. -/
theorem div_bounds_of_lt {n d : ℕ} (hn : 0 < n) (h : n < d) :
    (1 : ℚ) ≤ (n : ℚ) / d * (10 : ℚ) ^ digitCount ((d - 1) / n) ∧
      (n : ℚ) / d * (10 : ℚ) ^ (digitCount ((d - 1) / n) - 1) < 1 := by
  have hd : (0 : ℚ) < d := by exact_mod_cast hn.trans h
  obtain ⟨hlow, hhigh⟩ := pow_digitCount_bounds (Nat.div_pos (by omega : n ≤ d - 1) hn)
  rw [div_mul_eq_mul_div, div_mul_eq_mul_div, le_div_iff₀ hd, div_lt_iff₀ hd]
  constructor
  · have hmul := (Nat.div_lt_iff_lt_mul hn).1 hhigh
    have hle : 1 * d ≤ n * 10 ^ digitCount ((d - 1) / n) := by
      rw [Nat.mul_comm n]
      omega
    exact_mod_cast hle
  · have hmul := (Nat.le_div_iff_mul_le hn).1 hlow
    have hlt : n * 10 ^ (digitCount ((d - 1) / n) - 1) < 1 * d := by
      rw [Nat.mul_comm n]
      omega
    exact_mod_cast hlt

/-- A positive quotient lies between the power of ten of its leading exponent and the next. -/
theorem pow_leadingExponent_bounds {n d : ℕ} (hn : 0 < n) (hd : 0 < d) :
    (10 : ℚ) ^ leadingExponent n d ≤ (n : ℚ) / d ∧
      (n : ℚ) / d < (10 : ℚ) ^ (leadingExponent n d + 1) := by
  have hten : (0 : ℚ) < 10 := by norm_num
  unfold leadingExponent
  by_cases h : d ≤ n
  · have hpos : 0 < digitCount (n / d) := Nat.length_toDigits_pos
    obtain ⟨hlow, hhigh⟩ := div_bounds_of_le hd h
    rw [if_pos h, sub_add_cancel, zpow_natCast, ← Nat.cast_pred hpos, zpow_natCast]
    exact ⟨hlow, hhigh⟩
  · have hpos : 0 < digitCount ((d - 1) / n) := Nat.length_toDigits_pos
    obtain ⟨hlow, hhigh⟩ := div_bounds_of_lt hn (Nat.lt_of_not_le h)
    have hexponent : -(digitCount ((d - 1) / n) : ℤ) + 1 =
        -((digitCount ((d - 1) / n) - 1 : ℕ) : ℤ) := by omega
    rw [if_neg h, hexponent, zpow_neg, zpow_neg, zpow_natCast, zpow_natCast, ← one_div,
      ← one_div, div_le_iff₀ (pow_pos hten _), lt_div_iff₀ (pow_pos hten _)]
    exact ⟨hlow, hhigh⟩

/-- In units of a power of ten a quotient is divided by that power. -/
theorem inUnits_div {n d : ℕ} (exponent : ℤ) :
    ((inUnits n d exponent).1 : ℚ) / (inUnits n d exponent).2 * (10 : ℚ) ^ exponent =
      (n : ℚ) / d := by
  have hten : (10 : ℚ) ≠ 0 := by norm_num
  have hsplit := Int.toNat_sub_toNat_neg exponent
  conv_lhs => rw [← hsplit]
  rw [zpow_sub₀ hten, zpow_natCast, zpow_natCast]
  simp only [inUnits, hsplit, Nat.pow_eq]
  push_cast
  field_simp

/-- The denominator in units of a power of ten is not zero. -/
theorem inUnits_snd_pos {d : ℕ} (hd : 0 < d) (n : ℕ) (exponent : ℤ) :
    0 < (inUnits n d exponent).2 :=
  Nat.mul_pos hd (Nat.pow_pos (by decide))

/-- A rounded quotient differs from the exact one by at most a half. -/
theorem abs_roundQuotient_sub_le (n : ℕ) {d : ℕ} (hd : 0 < d) :
    |(roundQuotient n d : ℚ) - (n : ℚ) / d| ≤ 1 / 2 := by
  have hd' : (0 : ℚ) < d := by exact_mod_cast hd
  have hquotient : d * ((n : ℚ) / d) = n := mul_div_cancel₀ _ hd'.ne'
  have habove : 2 * ((d : ℚ) * roundQuotient n d) ≤ 2 * n + d := by
    exact_mod_cast (two_mul_roundQuotient_mul_bounds n hd).1
  have hbelow : 2 * (n : ℚ) ≤ 2 * (d * roundQuotient n d) + d := by
    exact_mod_cast (two_mul_roundQuotient_mul_bounds n hd).2
  rw [abs_le]
  constructor
  · refine le_of_mul_le_mul_left ?_ hd'
    linarith
  · refine le_of_mul_le_mul_left ?_ hd'
    linarith

/-- Rounding to a power of ten changes a quotient by at most half of that power. -/
theorem abs_toRat_roundTo_sub_le (n : ℕ) {d : ℕ} (hd : 0 < d) (exponent : ℤ) :
    |(roundTo n d exponent).toRat - (n : ℚ) / d| ≤ 1 / 2 * (10 : ℚ) ^ exponent := by
  have hpow : (0 : ℚ) < (10 : ℚ) ^ exponent := zpow_pos (by norm_num) _
  have hround := abs_roundQuotient_sub_le (inUnits n d exponent).1
    (inUnits_snd_pos hd n exponent)
  rw [← inUnits_div exponent, Decimal.toRat, roundTo, ← sub_mul, abs_mul, abs_of_pos hpow]
  exact mul_le_mul_of_nonneg_right hround hpow.le

/-- A quotient below the middle between two multiples of a power of ten is rounded to the lower
of them or less. -/
theorem coefficient_roundTo_lt {n d bound : ℕ} (hd : 0 < d) {exponent : ℤ}
    (h : (n : ℚ) / d < (bound - 1 / 2) * (10 : ℚ) ^ exponent) :
    (roundTo n d exponent).coefficient < bound := by
  have hunits := inUnits_snd_pos hd n exponent
  have hunits' : (0 : ℚ) < (inUnits n d exponent).2 := by exact_mod_cast hunits
  have hpow : (0 : ℚ) < (10 : ℚ) ^ exponent := zpow_pos (by norm_num) _
  rw [← inUnits_div exponent] at h
  have hquotient := lt_of_mul_lt_mul_right h hpow.le
  rw [div_lt_iff₀ hunits'] at hquotient
  have hmiddle : 2 * ((inUnits n d exponent).1 : ℚ) + (inUnits n d exponent).2 <
      2 * ((inUnits n d exponent).2 * bound) := by linarith
  exact roundQuotient_lt_of_lt hunits (by exact_mod_cast hmiddle)

/-- Rounding to significant digits rounds to the power of ten of the last of them. -/
theorem toRat_roundSignificant (count n d : ℕ) :
    (roundSignificant count n d).toRat =
      (roundTo n d (leadingExponent n d - count)).toRat := by
  have hten : (10 : ℚ) ≠ 0 := by norm_num
  unfold roundSignificant
  dsimp only
  split
  · -- A carry out of the digits moves a factor of ten from the coefficient to the exponent.
    rename_i hcarry
    rw [Decimal.toRat, Decimal.toRat, hcarry, zpow_add₀ hten]
    simp only [Nat.pow_eq, Nat.pow_succ]
    push_cast
    ring
  · rfl

end Calculator.Number
