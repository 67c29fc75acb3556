import Calculator.Proofs.Literals
import Calculator.Proofs.Nearest

/-!
# Literals written again

A literal that has been read back from its text is written as the same text again, with one
exception. Reading finds the number nearest to the six digits, which is no farther from them
than the literal was, so it has the same six digits unless it lies below a power of ten that the
literal reaches. There it still rounds up to the power of ten if the format is fine enough to
show six digits at all. Among the subnormal numbers it is not, and just once, at `1e-318`, the
number nearest to a power of ten is below it and another number is close above.
-/

namespace Calculator

namespace Number

/-- The units of the only number whose digits change when they are read back. -/
def Binary64.unstableUnits : ℕ := 202403

/-- A power of ten is from one to ten units long for one exponent only. -/
theorem eq_of_pow_near_unit {exponent : ℤ} (hlow : 1 ≤ (10 : ℚ) ^ exponent * Binary64.one)
    (hhigh : (10 : ℚ) ^ exponent * Binary64.one < 10) : exponent = -323 := by
  have hten : (1 : ℚ) < 10 := by norm_num
  have hpow : (0 : ℚ) < (10 : ℚ) ^ exponent := zpow_pos (by norm_num) _
  have hone : (Binary64.one : ℚ) < (10 : ℚ) ^ (324 : ℤ) := by
    exact_mod_cast Binary64.one_bounds.2
  have hone' : (10 : ℚ) ^ (323 : ℤ) ≤ Binary64.one := by
    exact_mod_cast Binary64.one_bounds.1.le
  have habove : (10 : ℚ) ^ (0 : ℤ) < (10 : ℚ) ^ (exponent + 324) := by
    rw [zpow_add₀ (by norm_num), zpow_zero]
    exact hlow.trans_lt (mul_lt_mul_of_pos_left hone hpow)
  have hbelow : (10 : ℚ) ^ (exponent + 323) < (10 : ℚ) ^ (1 : ℤ) := by
    rw [zpow_add₀ (by norm_num), zpow_one]
    exact (mul_le_mul_of_nonneg_left hone' hpow.le).trans_lt hhigh
  have hlow' := (zpow_lt_zpow_iff_right₀ hten).1 habove
  have hhigh' := (zpow_lt_zpow_iff_right₀ hten).1 hbelow
  omega

/-- Half of the sixth digit above `1e-318` there is one number. -/
theorem eq_unstableUnits {units : ℕ} (hlow : (10 : ℚ) ^ (-318 : ℤ) ≤ (units : ℚ) / Binary64.one)
    (hhigh : (units : ℚ) / Binary64.one ≤
      (10 : ℚ) ^ (-318 : ℤ) + 1 / 2 * (10 : ℚ) ^ (-323 : ℤ)) :
    units = Binary64.unstableUnits := by
  have hone := Binary64.cast_one_pos
  rw [zpow_neg, ← one_div, div_le_div_iff₀ (zpow_pos (by norm_num) _) hone, one_mul] at hlow
  have hlow' : Binary64.one ≤ units * 10 ^ 318 := by exact_mod_cast hlow
  have hhigh' : units * (2 * 10 ^ 323) ≤ 200001 * Binary64.one := by
    have hdigits : (10 : ℚ) ^ (-318 : ℤ) = 100000 * (10 : ℚ) ^ (-323 : ℤ) := by
      rw [pow_leading 5]
      norm_num
    rw [hdigits, ← add_mul, zpow_neg, ← div_eq_mul_inv,
      div_le_div_iff₀ hone (zpow_pos (by norm_num) _), zpow_ofNat] at hhigh
    have hrat : (units : ℚ) * (2 * 10 ^ 323) ≤ 200001 * Binary64.one := by
      generalize (10 : ℚ) ^ 323 = scale at hhigh ⊢
      linarith
    exact_mod_cast hrat
  have hmany : 202402 * 10 ^ 318 < Binary64.one := by decide +kernel
  have hfew : 200001 * Binary64.one < 202404 * (2 * 10 ^ 323) := by decide +kernel
  have hge : 202402 < units := lt_of_mul_lt_mul_right (hmany.trans_le hlow') (Nat.zero_le _)
  have hle : units < 202404 := lt_of_mul_lt_mul_right (hhigh'.trans_lt hfew) (Nat.zero_le _)
  exact Nat.le_antisymm (Nat.le_of_lt_succ hle) hge

/-- Two numbers on both sides of a power of ten, the lower one nearer by no more than half a unit
and yet with other digits than the power, are those around `1e-318`. -/
theorem eq_unstableUnits_of_straddle {units units' : ℕ} {leading : ℤ}
    (hbelow : (units' : ℚ) / Binary64.one <
      (10 : ℚ) ^ leading - 1 / 20 * (10 : ℚ) ^ (leading - 5))
    (hlow : (10 : ℚ) ^ leading ≤ (units : ℚ) / Binary64.one)
    (hhigh : (units : ℚ) / Binary64.one ≤
      (10 : ℚ) ^ leading + 1 / 2 * (10 : ℚ) ^ (leading - 5))
    (hclose : (10 : ℚ) ^ leading - (units' : ℚ) / Binary64.one ≤
      (units : ℚ) / Binary64.one - (10 : ℚ) ^ leading)
    (hunit : (10 : ℚ) ^ leading - (units' : ℚ) / Binary64.one ≤ 1 / 2 / Binary64.one) :
    units = Binary64.unstableUnits := by
  have hone := Binary64.cast_one_pos
  have hstep : (0 : ℚ) < (10 : ℚ) ^ (leading - 5) := zpow_pos (by norm_num) _
  have hless : units' < units := by
    have hquotients : (units' : ℚ) / Binary64.one < (units : ℚ) / Binary64.one := by linarith
    exact_mod_cast lt_of_mul_lt_mul_right hquotients (inv_nonneg.2 hone.le)
  have hapart : ((units' + 1 : ℕ) : ℚ) / Binary64.one ≤ (units : ℚ) / Binary64.one :=
    div_le_div_of_nonneg_right (by exact_mod_cast hless) hone.le
  rw [Nat.cast_add, Nat.cast_one, add_div] at hapart
  have hlong : 1 / (Binary64.one : ℚ) ≤ (10 : ℚ) ^ (leading - 5) := by linarith
  have hgap : 1 / 20 * (10 : ℚ) ^ (leading - 5) <
      (10 : ℚ) ^ leading - (units' : ℚ) / Binary64.one := by linarith
  have hshort := (mul_lt_mul_of_pos_right hgap hone).trans_le ((le_div_iff₀ hone).1 hunit)
  have hexponent := eq_of_pow_near_unit ((div_le_iff₀ hone).1 hlong) (by linarith)
  obtain rfl : leading = -318 := by omega
  exact eq_unstableUnits hlow hhigh

/-- The number nearest to the six digits of another has the same digits unless the other one is
unstable. -/
theorem roundSignificant_eq_of_isNearest {units units' : ℕ} (hunits : 0 < units)
    (h : Binary64.IsNearest (roundSignificant 5 units Binary64.one).toRat units')
    (hclose : |(units' : ℚ) / Binary64.one - (roundSignificant 5 units Binary64.one).toRat| ≤
      |(units : ℚ) / Binary64.one - (roundSignificant 5 units Binary64.one).toRat|)
    (hstable : units ≠ Binary64.unstableUnits) :
    roundSignificant 5 units' Binary64.one = roundSignificant 5 units Binary64.one := by
  by_contra hchanged
  have hfar : (units' : ℚ) / Binary64.one < (10 : ℚ) ^ leadingExponent units Binary64.one -
      1 / 20 * (10 : ℚ) ^ (leadingExponent units Binary64.one - 5) := by
    by_contra hreach
    exact hchanged (roundSignificant_eq_of_closer (by decide) hunits Binary64.one_pos
      Binary64.one_pos hclose (not_lt.1 hreach))
  have hstep : (0 : ℚ) < (10 : ℚ) ^ (leadingExponent units Binary64.one - 5) :=
    zpow_pos (by norm_num) _
  have hbelow : (units' : ℚ) / Binary64.one <
      (10 : ℚ) ^ leadingExponent units Binary64.one := by linarith
  have hrounded := toRat_roundSignificant_of_closer hunits Binary64.one_pos hclose hbelow
  have hround := abs_le.1 (abs_toRat_roundSignificant_sub_le 5 units Binary64.one_pos)
  have hlow := (pow_leadingExponent_bounds hunits Binary64.one_pos).1
  have hdigits := pow_leading 5 (leadingExponent units Binary64.one)
  have herror := h.error
  rw [hrounded, Nat.cast_ofNat] at hround
  rw [hrounded, abs_sub_comm, abs_of_pos (sub_pos.2 hbelow)] at herror hclose
  rw [abs_of_nonneg (sub_nonneg.2 hlow)] at hclose
  rcases herror with hunit | hrelative
  · exact hstable (eq_unstableUnits_of_straddle hfar hlow (by linarith) hclose hunit)
  · -- A part in `2 ^ 53` is less than a twentieth of the sixth digit.
    rw [le_div_iff₀ (by norm_num)] at hrelative
    rw [Nat.cast_ofNat] at hdigits
    linarith

end Number

open Number

/-- The number read back from the text of a finite number without a minus sign is one as well,
and the nearest to the six digits of that number. -/
theorem exists_isNearest_rereadNumber {x : Float} {units : ℕ}
    (h : Binary64.ofFloat x = .finite false units) :
    ∃ units', Binary64.ofFloat (rereadNumber x) = .finite false units' ∧
      Binary64.IsNearest (roundSignificant 5 units Binary64.one).toRat units' := by
  obtain ⟨numeral, _, _, hvalue, hread⟩ := exists_numeral_of_rereadNumber h
  exact hvalue ▸ Decimal.ofFloat_of_toFloat? hread

/-- A number that is not the unstable one has the same text again after it is read back. -/
theorem text_rereadNumber {x : Float} {units : ℕ} (h : Binary64.ofFloat x = .finite false units)
    (hstable : units ≠ Binary64.unstableUnits) :
    literalNotation.text (rereadNumber x) = literalNotation.text x := by
  obtain ⟨units', hreread, hnearest⟩ := exists_isNearest_rereadNumber h
  obtain ⟨pattern, _, hpattern⟩ := Binary64.exists_pattern_of_finite h
  have hclose := hpattern ▸ hnearest.closest pattern
  rcases Nat.eq_zero_or_pos units with rfl | hunits
  · rw [toRat_roundSignificant_zero, Nat.cast_zero, zero_div, sub_self, abs_zero, sub_zero,
      abs_nonpos_iff, div_eq_zero_iff] at hclose
    have hunits' : units' = 0 := by
      exact_mod_cast hclose.resolve_right Binary64.cast_one_pos.ne'
    rw [text_of_zero (hunits' ▸ hreread), text_of_zero h]
  · have hdigits := roundSignificant_eq_of_isNearest hunits hnearest hclose hstable
    have hunits' := pos_of_closer hunits Binary64.one_pos hclose
    rw [text_of_finite hreread hunits', text_of_finite h hunits, hdigits]

/-- The number `1.000004e-318`, written as `1e-318` and read back as the number below it. -/
def unstableNumber : Float :=
  Float.ofBits 202403

/-- The number that the text of the unstable one is read back as. -/
def unstableReading : Float :=
  Float.ofBits 202402

/-- The unstable number has its units. -/
theorem ofFloat_unstableNumber :
    Binary64.ofFloat unstableNumber = .finite false Binary64.unstableUnits :=
  rfl

/-- The texts of the unstable number and of the number below it. -/
theorem text_unstable : literalNotation.text unstableNumber = "1e-318".toList ∧
    literalNotation.text unstableReading = "9.99999e-319".toList := by
  decide +kernel

/-- The unstable number is read back as the number below it, and this one as itself. -/
theorem rereadNumber_unstable : rereadNumber unstableNumber = unstableReading ∧
    rereadNumber unstableReading = unstableReading := by
  decide +kernel

/-- What has been read back once is read back as itself. -/
theorem rereadNumber_rereadNumber {x : Float} {units : ℕ}
    (h : Binary64.ofFloat x = .finite false units) :
    rereadNumber (rereadNumber x) = rereadNumber x := by
  by_cases hstable : units = Binary64.unstableUnits
  · rw [hstable] at h
    rw [Binary64.eq_of_finite h ofFloat_unstableNumber, rereadNumber_unstable.1,
      rereadNumber_unstable.2]
  · obtain ⟨numeral, hcomplete, htext, _, hread⟩ := exists_numeral_of_rereadNumber h
    exact rereadNumber_of_text hcomplete ((text_rereadNumber h hstable).trans htext) hread

end Calculator
