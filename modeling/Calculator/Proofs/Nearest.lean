import Calculator.Proofs.Patterns
import Calculator.Proofs.Rounded
import Mathlib.Algebra.Order.Field.Basic

/-!
# The nearest number

Reading a decimal gives the number nearest to it. The quotient keeps 53 of its binary digits, and
the units of any pattern are a multiple of the place of the last one kept or lie below the least
number that has so many digits; in both cases some multiple of this place is at least as near.
Rounding loses half a unit, or a part in `2 ^ 53` where there were digits to be dropped.
-/

namespace Calculator.Number

/-- Every natural number but the rounded one is at least half a unit away from a quotient. -/
theorem half_le_abs_sub_of_ne {n d k : ℕ} (hd : 0 < d) (hne : k ≠ roundQuotient n d) :
    1 / 2 ≤ |(k : ℚ) - (n : ℚ) / d| := by
  have hround := abs_roundQuotient_sub_le n hd
  -- It is a whole unit away from the rounded one.
  have hunit : (1 : ℚ) ≤ |(k : ℚ) - roundQuotient n d| := by
    have hint : (1 : ℤ) ≤ |(k : ℤ) - roundQuotient n d| :=
      Int.one_le_abs (sub_ne_zero.2 (by exact_mod_cast hne))
    exact_mod_cast hint
  have htriangle := abs_sub_le (k : ℚ) ((n : ℚ) / d) (roundQuotient n d)
  rw [abs_sub_comm ((n : ℚ) / d)] at htriangle
  linarith

/-- No natural number is nearer to a quotient than the rounded one. -/
theorem abs_roundQuotient_sub_le_abs_sub (n : ℕ) {d : ℕ} (hd : 0 < d) (k : ℕ) :
    |(roundQuotient n d : ℚ) - (n : ℚ) / d| ≤ |(k : ℚ) - (n : ℚ) / d| := by
  rcases eq_or_ne k (roundQuotient n d) with rfl | hne
  · exact le_rfl
  · exact (abs_roundQuotient_sub_le n hd).trans (half_le_abs_sub_of_ne hd hne)

namespace Binary64

/-- One is some rational number of units. -/
theorem cast_one_pos : (0 : ℚ) < one :=
  by exact_mod_cast one_pos

/-- The binary digits that a quotient has beyond its first 53. -/
def excess (m d : ℕ) : ℕ :=
  (m / d).log2 - 52

/-- Without its excess digits a quotient that has such is not subnormal. -/
theorem binade_mul_le {m d : ℕ} (hd : 0 < d) (h : excess m d ≠ 0) :
    binade * (d * Nat.pow 2 (excess m d)) ≤ m := by
  have hlog : 52 ≤ (m / d).log2 := by
    unfold excess at h
    omega
  have hpositive : m / d ≠ 0 := by
    intro hzero
    rw [hzero] at hlog
    exact absurd hlog (by decide)
  have hpow := (Nat.le_div_iff_mul_le hd).1 (Nat.log2_self_le hpositive)
  have hsplit : 2 ^ (m / d).log2 = 2 ^ 52 * 2 ^ excess m d := by
    rw [excess, ← Nat.pow_add, Nat.add_sub_cancel' hlog]
  rw [hsplit] at hpow
  simp only [binade, Nat.pow_eq]
  linarith

/-- A quotient with excess digits is at least the least multiple that needs all 53 digits. -/
theorem binade_mul_le_div {m d : ℕ} (hd : 0 < d) (h : excess m d ≠ 0) :
    ((binade * Nat.pow 2 (excess m d) : ℕ) : ℚ) ≤ (m : ℚ) / d := by
  have hd' : (0 : ℚ) < d := by exact_mod_cast hd
  have hmul := binade_mul_le hd h
  rw [Nat.mul_left_comm, Nat.mul_comm d] at hmul
  rw [le_div_iff₀ hd']
  exact_mod_cast hmul

/-- The units of the pattern nearest to a quotient are the quotient rounded to its first 53
binary digits. -/
theorem unitsOfPattern_nearestPattern (n : ℕ) {d : ℕ} (hd : 0 < d) :
    unitsOfPattern (nearestPattern n d) =
      roundQuotient (one * n) (d * Nat.pow 2 (excess (one * n) d)) *
        Nat.pow 2 (excess (one * n) d) := by
  have hscaled : 0 < d * Nat.pow 2 (excess (one * n) d) :=
    Nat.mul_pos hd (Nat.pow_pos (by decide))
  have hhigh : roundQuotient (one * n) (d * Nat.pow 2 (excess (one * n) d)) ≤ 2 * binade :=
    roundQuotient_le_of_lt hscaled (lt_mul_pow_shift hd)
  refine unitsOfPattern_add ?_ hhigh
  by_cases hnone : excess (one * n) d = 0
  · exact .inl hnone
  · exact .inr (le_roundQuotient ((Nat.le_div_iff_mul_le hscaled).2 (binade_mul_le hd hnone)))

/-- A pattern's units are a multiple of the power of two that counts the excess digits of a
quotient, or some multiple of it is nearer to the quotient. -/
theorem exists_multiple_nearer {m d : ℕ} (hd : 0 < d) (pattern : ℕ) :
    ∃ multiple : ℕ, unitsOfPattern pattern = multiple * Nat.pow 2 (excess m d) ∨
      |((multiple * Nat.pow 2 (excess m d) : ℕ) : ℚ) - (m : ℚ) / d| <
        |(unitsOfPattern pattern : ℚ) - (m : ℚ) / d| := by
  by_cases hnone : excess m d = 0
  · refine ⟨unitsOfPattern pattern, .inl ?_⟩
    rw [hnone]
    exact (Nat.mul_one _).symm
  rcases dvd_unitsOfPattern_or_lt (excess m d) pattern with ⟨multiple, hmultiple⟩ | hbelow
  · refine ⟨multiple, .inl ?_⟩
    rw [hmultiple, Nat.mul_comm]
  · -- The units lie below the least multiple with 53 digits, and the quotient above it.
    refine ⟨binade, .inr ?_⟩
    have habove := binade_mul_le_div hd hnone
    have hbelow' : (unitsOfPattern pattern : ℚ) < (binade * Nat.pow 2 (excess m d) : ℕ) := by
      exact_mod_cast hbelow
    rw [abs_sub_comm, abs_of_nonneg (sub_nonneg.2 habove), abs_sub_comm,
      abs_of_nonneg (sub_nonneg.2 (hbelow'.le.trans habove))]
    linarith

/-- How far a multiple of a power of two is from a quotient, in steps of this power. -/
theorem abs_mul_pow_sub (multiple m d shift : ℕ) :
    |((multiple * Nat.pow 2 shift : ℕ) : ℚ) - (m : ℚ) / d| =
      |(multiple : ℚ) - (m : ℚ) / (d * Nat.pow 2 shift : ℕ)| * (Nat.pow 2 shift : ℕ) := by
  have hpow : (0 : ℚ) < (Nat.pow 2 shift : ℕ) := by
    exact_mod_cast Nat.pow_pos (by decide)
  have hquotient : (m : ℚ) / d = (m : ℚ) / (d * Nat.pow 2 shift : ℕ) * (Nat.pow 2 shift : ℕ) := by
    rw [Nat.cast_mul, div_mul_eq_mul_div, mul_div_mul_right _ _ hpow.ne']
  rw [hquotient, Nat.cast_mul multiple, ← sub_mul, abs_mul, abs_of_pos hpow]

/-- No multiple of the power of two that counts the excess digits of a quotient is nearer to it
than the rounded one. -/
theorem abs_rounded_multiple_sub_le (m : ℕ) {d : ℕ} (hd : 0 < d) (multiple : ℕ) :
    |((roundQuotient m (d * Nat.pow 2 (excess m d)) * Nat.pow 2 (excess m d) : ℕ) : ℚ) -
        (m : ℚ) / d| ≤ |((multiple * Nat.pow 2 (excess m d) : ℕ) : ℚ) - (m : ℚ) / d| := by
  have hscaled : 0 < d * Nat.pow 2 (excess m d) := Nat.mul_pos hd (Nat.pow_pos (by decide))
  rw [abs_mul_pow_sub, abs_mul_pow_sub]
  exact mul_le_mul_of_nonneg_right (abs_roundQuotient_sub_le_abs_sub m hscaled multiple)
    (Nat.cast_nonneg _)

/-- No number without a sign is nearer to a quotient than the one of the nearest pattern. -/
theorem abs_nearestPattern_sub_le (n : ℕ) {d : ℕ} (hd : 0 < d) (pattern : ℕ) :
    |(unitsOfPattern (nearestPattern n d) : ℚ) - (one * n : ℕ) / d| ≤
      |(unitsOfPattern pattern : ℚ) - (one * n : ℕ) / d| := by
  rw [unitsOfPattern_nearestPattern n hd]
  obtain ⟨multiple, hmultiple⟩ := exists_multiple_nearer (m := one * n) hd pattern
  refine (abs_rounded_multiple_sub_le (one * n) hd multiple).trans ?_
  rcases hmultiple with hsame | hnearer
  · rw [hsame]
  · exact hnearer.le

/-- The nearest pattern is at most half a unit off, or a part in `2 ^ 53`. -/
theorem abs_nearestPattern_sub_le_half (n : ℕ) {d : ℕ} (hd : 0 < d) :
    |(unitsOfPattern (nearestPattern n d) : ℚ) - (one * n : ℕ) / d| ≤ 1 / 2 ∨
      |(unitsOfPattern (nearestPattern n d) : ℚ) - (one * n : ℕ) / d| ≤
        (one * n : ℕ) / d / 2 ^ 53 := by
  rw [unitsOfPattern_nearestPattern n hd]
  generalize one * n = m
  have hscaled : 0 < d * Nat.pow 2 (excess m d) := Nat.mul_pos hd (Nat.pow_pos (by decide))
  have hround := abs_roundQuotient_sub_le m hscaled
  by_cases hnone : excess m d = 0
  · left
    rw [hnone] at hround ⊢
    simpa using hround
  · right
    have habove := binade_mul_le_div hd hnone
    have hpow : (0 : ℚ) ≤ (Nat.pow 2 (excess m d) : ℕ) := Nat.cast_nonneg _
    have hscaled := mul_le_mul_of_nonneg_right hround hpow
    have hbinade : (binade : ℚ) = 2 ^ 52 := by exact_mod_cast (rfl : binade = 2 ^ 52)
    rw [Nat.cast_mul, hbinade] at habove
    rw [abs_mul_pow_sub, le_div_iff₀ (by norm_num)]
    linarith

/-- A quotient of at most half a unit has the pattern of zero, and no greater one has it. -/
theorem nearestPattern_eq_zero_iff {n d : ℕ} (hd : 0 < d) :
    nearestPattern n d = 0 ↔ 2 * (one * n) ≤ d := by
  unfold nearestPattern
  constructor
  · intro h
    obtain ⟨hshift, hround⟩ := Nat.add_eq_zero_iff.1 h
    have hbinade : 0 < binade := by decide
    rcases Nat.mul_eq_zero.1 hshift with hnone | hzero
    · rw [hnone] at hround
      change roundQuotient (one * n) (d * 1) = 0 at hround
      rw [Nat.mul_one] at hround
      have hless := (two_mul_roundQuotient_mul_bounds (one * n) hd).2
      rwa [hround, Nat.mul_zero, Nat.mul_zero, Nat.zero_add] at hless
    · omega
  · intro h
    have hquotient : one * n / d = 0 := Nat.div_eq_of_lt (by omega)
    have hremainder : one * n % d = one * n := Nat.mod_eq_of_lt (by omega)
    rw [hquotient]
    change 0 * binade + roundQuotient (one * n) (d * 1) = 0
    rw [Nat.mul_one, roundQuotient, hremainder, hquotient, if_neg (Nat.not_lt.2 h), ite_self,
      Nat.zero_mul]

/-- A number of units is the nearest to a rational number that the format has: no other is
closer, and it is at most half a unit off or a part in `2 ^ 53`. -/
structure IsNearest (q : ℚ) (units : ℕ) : Prop where
  /-- No number without a sign is closer. -/
  closest : ∀ pattern, |(units : ℚ) / one - q| ≤ |(unitsOfPattern pattern : ℚ) / one - q|
  /-- The error is small in units or relative to the number. -/
  error : |(units : ℚ) / one - q| ≤ 1 / 2 / one ∨ |(units : ℚ) / one - q| ≤ q / 2 ^ 53

/-- The distance of units from a quotient, in units. -/
theorem abs_div_one_sub (units n d : ℕ) : |(units : ℚ) / one - (n : ℚ) / d| =
    |(units : ℚ) - (one * n : ℕ) / d| / one := by
  have hone := cast_one_pos
  have hsub : (units : ℚ) / one - (n : ℚ) / d = ((units : ℚ) - (one * n : ℕ) / d) / one := by
    rw [Nat.cast_mul, sub_div, mul_div_assoc, mul_div_cancel_left₀ _ hone.ne']
  rw [hsub, abs_div, abs_of_pos hone]

/-- The nearest pattern of a quotient has the units nearest to it. -/
theorem isNearest_nearestPattern (n : ℕ) {d : ℕ} (hd : 0 < d) :
    IsNearest ((n : ℚ) / d) (unitsOfPattern (nearestPattern n d)) := by
  have hone := cast_one_pos
  constructor
  · intro pattern
    rw [abs_div_one_sub, abs_div_one_sub]
    exact div_le_div_of_nonneg_right (abs_nearestPattern_sub_le n hd pattern) hone.le
  · rw [abs_div_one_sub]
    refine (abs_nearestPattern_sub_le_half n hd).imp ?_ ?_
    · exact fun h => div_le_div_of_nonneg_right h hone.le
    · intro h
      rw [div_le_iff₀ hone]
      refine h.trans_eq ?_
      rw [Nat.cast_mul]
      ring

end Binary64

namespace Decimal

/-- A negligible decimal is nearest to the pattern of zero. -/
theorem nearestPattern_of_isNegligible {number : Decimal} (h : number.isNegligible = true) :
    Binary64.nearestPattern number.numerator number.denominator = 0 := by
  have hden : (0 : ℚ) < number.denominator := by exact_mod_cast number.denominator_pos
  have hsmall := toRat_lt_of_isNegligible h
  rw [toRat_eq_div, zpow_neg, ← one_div, div_lt_div_iff₀ hden (zpow_pos (by norm_num) _),
    one_mul] at hsmall
  have hnat : number.numerator * 10 ^ 325 < number.denominator := by exact_mod_cast hsmall
  have hunits : 2 * Binary64.one ≤ 10 ^ 325 := by
    have hone := Binary64.one_bounds.2
    rw [Nat.pow_succ]
    omega
  refine (Binary64.nearestPattern_eq_zero_iff number.denominator_pos).2 (le_of_lt ?_)
  calc 2 * (Binary64.one * number.numerator)
      = number.numerator * (2 * Binary64.one) := by ring
    _ ≤ number.numerator * 10 ^ 325 := Nat.mul_le_mul_left _ hunits
    _ < number.denominator := hnat

/-- A decimal that is read is read as the number of the nearest pattern. -/
theorem ofFloat_nearestPattern {number : Decimal} {value : Float}
    (h : number.toFloat? = some value) : Binary64.ofFloat value = .finite false
      (Binary64.unitsOfPattern (Binary64.nearestPattern number.numerator number.denominator)) := by
  unfold toFloat? at h
  split at h
  · rename_i hnegligible
    rw [nearestPattern_of_isNegligible hnegligible]
    cases h
    exact Binary64.ofFloat_zero
  · split at h
    · cases h
    · unfold Binary64.nearest? at h
      split at h
      · rename_i hfinite
        cases h
        exact Binary64.ofFloat_ofBits hfinite
      · cases h

/-- A decimal that is read is read as the number nearest to it. -/
theorem ofFloat_of_toFloat? {number : Decimal} {value : Float}
    (h : number.toFloat? = some value) :
    ∃ units, Binary64.ofFloat value = .finite false units ∧
      Binary64.IsNearest number.toRat units := by
  have hnearest := Binary64.isNearest_nearestPattern number.numerator number.denominator_pos
  rw [← number.toRat_eq_div] at hnearest
  exact ⟨_, ofFloat_nearestPattern h, hnearest⟩

end Decimal

end Calculator.Number
