import Calculator.Proofs.Rounded

/-!
# Significant digits

A quotient is rounded to the multiple of a power of ten that is at most half of the power away,
a tie leaving an even coefficient, and this property determines the multiple. So the second
rounding of general notation, to the place that the first one has found, gives the same decimal
as the first, carry or not.

What is no farther from the rounded quotient than the quotient itself is rounded to the same
decimal. The only way out is downwards over a power of ten, where the digits stand one place
further down and tell more numbers apart.
-/

namespace Calculator.Number

/-- A quotient rounded by half a unit is rounded to an even number. -/
theorem even_of_abs_roundQuotient_sub {n d : ℕ} (hd : 0 < d)
    (h : |(roundQuotient n d : ℚ) - (n : ℚ) / d| = 1 / 2) : roundQuotient n d % 2 = 0 := by
  apply roundQuotient_even_of_tie
  have hd' : (0 : ℚ) < d := by exact_mod_cast hd
  have hquotient : d * ((n : ℚ) / d) = n := mul_div_cancel₀ _ hd'.ne'
  have hhalf : 2 * (d * roundQuotient n d) = 2 * n + d ∨
      2 * n = 2 * (d * roundQuotient n d) + d := by
    rcases (abs_eq (by norm_num)).1 h with habove | hbelow
    · left
      have hmul := congrArg ((d : ℚ) * ·) habove
      simp only [mul_sub, hquotient] at hmul
      have hrat : 2 * ((d : ℚ) * roundQuotient n d) = 2 * n + d := by linarith
      exact_mod_cast hrat
    · right
      have hmul := congrArg ((d : ℚ) * ·) hbelow
      simp only [mul_sub, hquotient] at hmul
      have hrat : 2 * (n : ℚ) = 2 * (d * roundQuotient n d) + d := by linarith
      exact_mod_cast hrat
  have hdivision := Nat.div_add_mod n d
  have hremainder := Nat.mod_lt n hd
  unfold roundQuotient at hhalf
  split at hhalf
  · omega
  · split at hhalf
    · rw [Nat.mul_add] at hhalf
      omega
    · omega

/-- A natural number at most half a unit away, and even if it is as far, is the rounded
quotient. -/
theorem roundQuotient_eq {n d k : ℕ} (hd : 0 < d) (h : |(k : ℚ) - (n : ℚ) / d| ≤ 1 / 2)
    (heven : |(k : ℚ) - (n : ℚ) / d| = 1 / 2 → k % 2 = 0) : roundQuotient n d = k := by
  have hround := abs_roundQuotient_sub_le n hd
  have htie := even_of_abs_roundQuotient_sub (n := n) hd
  generalize roundQuotient n d = r at hround htie
  generalize (n : ℚ) / d = q at h heven hround htie
  by_contra hne
  -- Two natural numbers half a unit away are next to each other, so only one of them is even.
  have hbounds := abs_le.1 h
  have hbounds' := abs_le.1 hround
  rcases Nat.lt_or_gt_of_ne hne with hlt | hgt
  · have hstep : (r : ℚ) + 1 ≤ k := by exact_mod_cast hlt
    have hr := htie (by rw [abs_eq (by norm_num)]; right; linarith)
    have hk := heven (by rw [abs_eq (by norm_num)]; left; linarith)
    have hnext : (k : ℚ) ≤ r + 1 := by linarith
    have hnext' : k ≤ r + 1 := by exact_mod_cast hnext
    omega
  · have hstep : (k : ℚ) + 1 ≤ r := by exact_mod_cast hgt
    have hr := htie (by rw [abs_eq (by norm_num)]; left; linarith)
    have hk := heven (by rw [abs_eq (by norm_num)]; right; linarith)
    have hnext : (r : ℚ) ≤ k + 1 := by linarith
    have hnext' : r ≤ k + 1 := by exact_mod_cast hnext
    omega

/-- A quotient is rounded to a multiple of the power of ten asked for. -/
@[simp] theorem exponent_roundTo (n d : ℕ) (exponent : ℤ) :
    (roundTo n d exponent).exponent = exponent :=
  rfl

/-- A multiple of a power of ten at most half of it away, with an even coefficient if it is as
far, is the quotient rounded to that power. -/
theorem roundTo_eq {n d coefficient : ℕ} (hd : 0 < d) {exponent : ℤ}
    (h : |coefficient * (10 : ℚ) ^ exponent - (n : ℚ) / d| ≤ 1 / 2 * (10 : ℚ) ^ exponent)
    (heven : |coefficient * (10 : ℚ) ^ exponent - (n : ℚ) / d| = 1 / 2 * (10 : ℚ) ^ exponent →
      coefficient % 2 = 0) : roundTo n d exponent = ⟨coefficient, exponent⟩ := by
  have hpow : (0 : ℚ) < (10 : ℚ) ^ exponent := zpow_pos (by norm_num) _
  rw [← inUnits_div exponent, ← sub_mul, abs_mul, abs_of_pos hpow] at h heven
  rw [roundTo, roundQuotient_eq (inUnits_snd_pos hd n exponent) (le_of_mul_le_mul_right h hpow)
    fun htie => heven (by rw [htie])]

/-- A quotient rounded by half of a power of ten has an even coefficient. -/
theorem even_of_abs_toRat_roundTo_sub {n d : ℕ} (hd : 0 < d) {exponent : ℤ}
    (h : |(roundTo n d exponent).toRat - (n : ℚ) / d| = 1 / 2 * (10 : ℚ) ^ exponent) :
    (roundTo n d exponent).coefficient % 2 = 0 := by
  have hpow : (0 : ℚ) < (10 : ℚ) ^ exponent := zpow_pos (by norm_num) _
  rw [← inUnits_div exponent, Decimal.toRat, roundTo, ← sub_mul, abs_mul, abs_of_pos hpow] at h
  exact even_of_abs_roundQuotient_sub (inUnits_snd_pos hd n exponent)
    (mul_right_cancel₀ hpow.ne' h)

/-- Only the leading exponent has a quotient between its power of ten and the next. -/
theorem leadingExponent_eq {n d : ℕ} (hd : 0 < d) {exponent : ℤ}
    (hlow : (10 : ℚ) ^ exponent ≤ (n : ℚ) / d) (hhigh : (n : ℚ) / d < (10 : ℚ) ^ (exponent + 1)) :
    leadingExponent n d = exponent := by
  have hten : (1 : ℚ) < 10 := by norm_num
  have hn : 0 < n := by
    by_contra hzero
    rw [Nat.eq_zero_of_not_pos hzero, Nat.cast_zero, zero_div] at hlow
    exact absurd hlow (not_le.2 (zpow_pos (by norm_num) _))
  obtain ⟨hlow', hhigh'⟩ := pow_leadingExponent_bounds hn hd
  have habove := (zpow_lt_zpow_iff_right₀ hten).1 (hlow.trans_lt hhigh')
  have hbelow := (zpow_lt_zpow_iff_right₀ hten).1 (hlow'.trans_lt hhigh)
  omega

/-- The power of ten of the leading digit is as many times that of the last digit kept as the
digits between them say. -/
theorem pow_leading (count : ℕ) (leading : ℤ) :
    (10 : ℚ) ^ leading = (10 : ℚ) ^ count * (10 : ℚ) ^ (leading - count) := by
  rw [← zpow_natCast, ← zpow_add₀ (by norm_num), add_sub_cancel]

/-- Above the next power of ten the last digit stands one place further up. -/
theorem pow_last (count : ℕ) (leading : ℤ) :
    (10 : ℚ) ^ (leading + 1 - count) = (10 : ℚ) ^ (leading - count) * 10 := by
  have hplace : leading + 1 - count = leading - count + 1 := by omega
  rw [hplace, zpow_add_one₀ (by norm_num)]

/-- A multiple of a power of ten that lies below the next one after another is no greater. -/
theorem le_of_mul_pow_lt {a b : ℕ} (exponent : ℤ)
    (h : a * (10 : ℚ) ^ exponent < (b + 1) * (10 : ℚ) ^ exponent) : a ≤ b := by
  have hrat := lt_of_mul_lt_mul_right h (zpow_nonneg (by norm_num) _)
  exact Nat.le_of_lt_succ (by exact_mod_cast hrat)

/-- A power of ten with digits after the first is even. -/
theorem pow_ten_mod_two {count : ℕ} (h : 0 < count) : Nat.pow 10 count % 2 = 0 := by
  obtain ⟨fewer, rfl⟩ := Nat.exists_eq_succ_of_ne_zero h.ne'
  rw [Nat.pow_eq, Nat.pow_succ]
  omega

/-- A quotient that cannot be told from a power of ten by the given count of digits is rounded
to this power, also from below, where the digits stand one place further down. -/
theorem roundSignificant_eq_of_near_pow {count n d : ℕ} (hcount : 0 < count) (hd : 0 < d)
    (leading : ℤ)
    (hlow : (10 : ℚ) ^ leading - 1 / 20 * (10 : ℚ) ^ (leading - count) ≤ (n : ℚ) / d)
    (hhigh : (n : ℚ) / d ≤ (10 : ℚ) ^ leading + 1 / 2 * (10 : ℚ) ^ (leading - count)) :
    roundSignificant count n d = ⟨Nat.pow 10 count, leading - count⟩ := by
  have hten : (10 : ℚ) ≠ 0 := by norm_num
  have hstep : (0 : ℚ) < (10 : ℚ) ^ (leading - count) := zpow_pos (by norm_num) _
  have hsplit := pow_leading count leading
  have hdigits : (10 : ℚ) ≤ (10 : ℚ) ^ count := by
    calc (10 : ℚ) = 10 ^ 1 := (pow_one _).symm
      _ ≤ 10 ^ count := pow_le_pow_right₀ (by norm_num) hcount
  have hscaled := mul_le_mul_of_nonneg_right hdigits hstep.le
  unfold roundSignificant
  rcases le_or_gt ((10 : ℚ) ^ leading) ((n : ℚ) / d) with hreached | hbelow
  · have hleading : leadingExponent n d = leading := by
      apply leadingExponent_eq hd hreached
      rw [zpow_add_one₀ hten]
      linarith
    have hrounded : roundTo n d (leading - count) = ⟨Nat.pow 10 count, leading - count⟩ := by
      apply roundTo_eq hd
      · rw [Nat.pow_eq, Nat.cast_pow, Nat.cast_ofNat, ← hsplit, abs_le]
        constructor <;> linarith
      · exact fun _ => pow_ten_mod_two hcount
    have hfits : Nat.pow 10 count ≠ Nat.pow 10 (count + 1) := by
      rw [Nat.pow_eq, Nat.pow_eq]
      exact (Nat.pow_lt_pow_succ (by decide)).ne
    rw [hleading, hrounded]
    exact if_neg hfits
  · have hbefore : (10 : ℚ) ^ leading = (10 : ℚ) ^ (leading - 1) * 10 := by
      rw [← zpow_add_one₀ hten, sub_add_cancel]
    have hfiner := pow_last count (leading - 1)
    rw [sub_add_cancel] at hfiner
    have hleading : leadingExponent n d = leading - 1 := by
      apply leadingExponent_eq hd
      · linarith
      · rwa [sub_add_cancel]
    have hrounded : roundTo n d (leading - 1 - count) =
        ⟨Nat.pow 10 (count + 1), leading - 1 - count⟩ := by
      apply roundTo_eq hd
      · rw [Nat.pow_eq, Nat.cast_pow, Nat.cast_ofNat, pow_succ, mul_assoc,
          mul_comm 10, ← hfiner, ← hsplit, abs_le]
        constructor <;> linarith
      · exact fun _ => pow_ten_mod_two (Nat.succ_pos count)
    rw [hleading, hrounded]
    refine (if_pos rfl).trans ?_
    congr 1
    ring

/-- A quotient that is rounded to a multiple strictly between two powers of ten lies between them
itself. -/
theorem leadingExponent_eq_of_between {count n d coefficient : ℕ} (hd : 0 < d) {leading : ℤ}
    (hmore : 10 ^ count < coefficient) (hfits : coefficient < 10 ^ (count + 1))
    (h : |coefficient * (10 : ℚ) ^ (leading - count) - (n : ℚ) / d| ≤
      1 / 2 * (10 : ℚ) ^ (leading - count)) :
    leadingExponent n d = leading := by
  have hstep : (0 : ℚ) < (10 : ℚ) ^ (leading - count) := zpow_pos (by norm_num) _
  have hbounds := abs_le.1 h
  have hmore' : (10 : ℚ) ^ count + 1 ≤ coefficient := by exact_mod_cast hmore
  have hfits' : (coefficient : ℚ) + 1 ≤ 10 ^ (count + 1) := by exact_mod_cast hfits
  have hlow := mul_le_mul_of_nonneg_right hmore' hstep.le
  have hhigh := mul_le_mul_of_nonneg_right hfits' hstep.le
  rw [add_mul, one_mul] at hlow hhigh
  apply leadingExponent_eq hd
  · rw [pow_leading count]
    linarith
  · rw [zpow_add_one₀ (by norm_num), pow_leading count, mul_right_comm, ← pow_succ]
    linarith

section Digits

variable {count n d : ℕ}

/-- Rounded to significant digits a quotient has these many of them, or one more after a
carry. -/
theorem coefficient_roundTo_bounds (count : ℕ) (hn : 0 < n) (hd : 0 < d) :
    10 ^ count ≤ (roundTo n d (leadingExponent n d - count)).coefficient ∧
      (roundTo n d (leadingExponent n d - count)).coefficient ≤ 10 ^ (count + 1) := by
  have hstep : (0 : ℚ) < (10 : ℚ) ^ (leadingExponent n d - count) := zpow_pos (by norm_num) _
  have hround := abs_le.1 (abs_toRat_roundTo_sub_le n hd (leadingExponent n d - count))
  obtain ⟨hlow, hhigh⟩ := pow_leadingExponent_bounds hn hd
  rw [zpow_add_one₀ (by norm_num), pow_leading count] at hhigh
  rw [pow_leading count] at hlow
  rw [Decimal.toRat, exponent_roundTo] at hround
  constructor
  · apply le_of_mul_pow_lt (leadingExponent n d - count)
    rw [Nat.cast_pow, Nat.cast_ofNat, add_mul]
    linarith
  · apply le_of_mul_pow_lt (leadingExponent n d - count)
    rw [Nat.cast_pow, Nat.cast_ofNat, pow_succ, add_mul]
    linarith

/-- Rounding to significant digits changes a quotient by at most half of the last of them. -/
theorem abs_toRat_roundSignificant_sub_le (count n : ℕ) {d : ℕ} (hd : 0 < d) :
    |(roundSignificant count n d).toRat - (n : ℚ) / d| ≤
      1 / 2 * (10 : ℚ) ^ (leadingExponent n d - count) := by
  rw [toRat_roundSignificant]
  exact abs_toRat_roundTo_sub_le n hd _

/-- Nothing rounds to zero. -/
theorem toRat_roundSignificant_zero (count d : ℕ) : (roundSignificant count 0 d).toRat = 0 := by
  rw [toRat_roundSignificant, Decimal.toRat, roundTo, inUnits]
  simp [roundQuotient]

/-- A quotient rounded to the place where its last significant digit stands after rounding is
what it is rounded to by significant digits. -/
theorem roundTo_roundSignificant (count : ℕ) (hn : 0 < n) (hd : 0 < d) :
    roundTo n d (roundSignificant count n d).exponent = roundSignificant count n d := by
  unfold roundSignificant
  dsimp only
  split
  · -- After a carry the last place is ten times as large, and the quotient is close below it.
    rename_i hcarry
    have hten : (10 : ℚ) ≠ 0 := by norm_num
    have hround := abs_le.1 (abs_toRat_roundTo_sub_le n hd (leadingExponent n d - count))
    have hhigh := (pow_leadingExponent_bounds hn hd).2
    rw [zpow_add_one₀ hten, pow_leading count] at hhigh
    rw [Decimal.toRat, hcarry, Nat.pow_eq, Nat.cast_pow, Nat.cast_ofNat, exponent_roundTo,
      pow_succ] at hround
    have habs : |((Nat.pow 10 count : ℕ) : ℚ) * (10 : ℚ) ^ (leadingExponent n d - count + 1) -
        (n : ℚ) / d| < 1 / 2 * (10 : ℚ) ^ (leadingExponent n d - count + 1) := by
      rw [Nat.pow_eq, Nat.cast_pow, Nat.cast_ofNat, zpow_add_one₀ hten, abs_lt]
      constructor <;> linarith
    exact roundTo_eq hd habs.le fun htie => absurd htie habs.ne
  · rfl

variable {n' d' : ℕ}

/-- What is no farther than a positive quotient from the number that the quotient is rounded to is
not zero. -/
theorem pos_of_closer (hn : 0 < n) (hd : 0 < d)
    (hclose : |(n' : ℚ) / d' - (roundSignificant count n d).toRat| ≤
      |(n : ℚ) / d - (roundSignificant count n d).toRat|) : 0 < n' := by
  refine Nat.pos_of_ne_zero fun hzero => ?_
  have hstep : (0 : ℚ) < (10 : ℚ) ^ (leadingExponent n d - count) := zpow_pos (by norm_num) _
  have hround := abs_toRat_roundTo_sub_le n hd (leadingExponent n d - count)
  have hdigit : (1 : ℚ) ≤ (roundTo n d (leadingExponent n d - count)).coefficient := by
    have hpow : 0 < 10 ^ count := Nat.pow_pos (by decide)
    exact_mod_cast hpow.trans_le (coefficient_roundTo_bounds count hn hd).1
  rw [hzero, Nat.cast_zero, zero_div, zero_sub, abs_neg, abs_sub_comm (_ / _),
    toRat_roundSignificant] at hclose
  -- The digits are at least one unit of the last place, and half a unit is lost at most.
  have hsmall := (le_abs_self _).trans (hclose.trans hround)
  rw [Decimal.toRat, exponent_roundTo] at hsmall
  have hless := hdigit.trans (le_of_mul_le_mul_right hsmall hstep)
  norm_num at hless

/-- What is no farther than a quotient from the number that the quotient is rounded to, and does
not lie below the power of ten of its leading digit, is rounded to the same number. -/
theorem roundSignificant_eq_of_closer (hcount : 0 < count) (hn : 0 < n) (hd : 0 < d)
    (hd' : 0 < d')
    (hclose : |(n' : ℚ) / d' - (roundSignificant count n d).toRat| ≤
      |(n : ℚ) / d - (roundSignificant count n d).toRat|)
    (hreach : (10 : ℚ) ^ leadingExponent n d -
      1 / 20 * (10 : ℚ) ^ (leadingExponent n d - count) ≤ (n' : ℚ) / d') :
    roundSignificant count n' d' = roundSignificant count n d := by
  have hten : (10 : ℚ) ≠ 0 := by norm_num
  have hround := abs_toRat_roundTo_sub_le n hd (leadingExponent n d - count)
  obtain ⟨hlow, hhigh⟩ := pow_leadingExponent_bounds hn hd
  obtain ⟨hfew, hmany⟩ := coefficient_roundTo_bounds count hn hd
  rw [toRat_roundSignificant, abs_sub_comm, abs_sub_comm (_ / _)] at hclose
  rw [Decimal.toRat, exponent_roundTo] at hclose hround
  have hround' := hclose.trans hround
  rcases Nat.lt_or_eq_of_le hmany with hfits | hcarry
  · rcases Nat.lt_or_eq_of_le hfew with hmore | hleast
    · -- Between two powers of ten both have the same leading digit and the same multiple nearest.
      have hrounded : roundTo n' d' (leadingExponent n' d' - count) =
          roundTo n d (leadingExponent n d - count) := by
        rw [leadingExponent_eq_of_between hd' hmore hfits hround']
        refine roundTo_eq hd' hround' fun htie => even_of_abs_toRat_roundTo_sub hd ?_
        exact le_antisymm hround (htie ▸ hclose)
      unfold roundSignificant
      rw [hrounded]
    · rw [← hleast, Nat.cast_pow, Nat.cast_ofNat, ← pow_leading, abs_le] at hround hround'
      rw [roundSignificant_eq_of_near_pow hcount hd (leadingExponent n d)
          (by linarith) (by linarith),
        roundSignificant_eq_of_near_pow hcount hd' _ hreach (by linarith)]
  · have hcoarser := pow_last count (leadingExponent n d)
    have hnext : (10 : ℚ) ^ (leadingExponent n d + 1) =
        (10 : ℚ) ^ (count + 1) * (10 : ℚ) ^ (leadingExponent n d - count) := by
      rw [zpow_add_one₀ hten, pow_leading count, pow_succ]
      ring
    rw [hcarry, Nat.cast_pow, Nat.cast_ofNat, ← hnext, abs_le] at hround hround'
    rw [roundSignificant_eq_of_near_pow hcount hd (leadingExponent n d + 1)
        (by linarith) (by linarith),
      roundSignificant_eq_of_near_pow hcount hd' (leadingExponent n d + 1)
        (by linarith) (by linarith)]

/-- If what is no farther from the number that a quotient is rounded to has a lower leading
digit, then this number is the power of ten of the quotient's leading digit. -/
theorem toRat_roundSignificant_of_closer (hn : 0 < n) (hd : 0 < d)
    (hclose : |(n' : ℚ) / d' - (roundSignificant count n d).toRat| ≤
      |(n : ℚ) / d - (roundSignificant count n d).toRat|)
    (hbelow : (n' : ℚ) / d' < (10 : ℚ) ^ leadingExponent n d) :
    (roundSignificant count n d).toRat = (10 : ℚ) ^ leadingExponent n d := by
  have hround := abs_toRat_roundTo_sub_le n hd (leadingExponent n d - count)
  obtain ⟨hfew, _⟩ := coefficient_roundTo_bounds count hn hd
  rw [toRat_roundSignificant, abs_sub_comm, abs_sub_comm (_ / _)] at hclose
  have hround' := abs_le.1 (hclose.trans hround)
  rw [Decimal.toRat, exponent_roundTo] at hround'
  rw [pow_leading count] at hbelow
  have hscaled : ((roundTo n d (leadingExponent n d - count)).coefficient : ℚ) *
      (10 : ℚ) ^ (leadingExponent n d - count) <
        ((10 ^ count : ℕ) + 1) * (10 : ℚ) ^ (leadingExponent n d - count) := by
    rw [Nat.cast_pow, Nat.cast_ofNat, add_mul]
    linarith
  have hleast := le_antisymm (le_of_mul_pow_lt _ hscaled) hfew
  rw [toRat_roundSignificant, Decimal.toRat, exponent_roundTo, hleast, Nat.cast_pow,
    Nat.cast_ofNat, ← pow_leading]

end Digits

end Calculator.Number
