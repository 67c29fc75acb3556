import Calculator.Number.Decimal
import Mathlib.Tactic.Linarith
import Mathlib.Tactic.Ring

/-!
# The finite range

Reading a decimal gives a number exactly if it lies below `2 ^ 1024 - 2 ^ 970`, halfway
between the greatest finite number and the power of two above it. The quotient is rounded to
a pattern of 53 significant bits; only in the last binade can the rounding carry into the
pattern of infinity, and there it does so from the middle of the last interval on.
-/

namespace Calculator.Number

/-- A rounded quotient does not exceed a natural number that is greater than the quotient. -/
theorem roundQuotient_le_of_lt {n d bound : ℕ} (hd : 0 < d) (h : n < d * bound) :
    roundQuotient n d ≤ bound := by
  have hround := (two_mul_roundQuotient_mul_bounds n hd).1
  by_contra hgt
  have hmul : d * (bound + 1) ≤ d * roundQuotient n d :=
    Nat.mul_le_mul_left d (Nat.lt_of_not_le hgt)
  rw [Nat.mul_add] at hmul
  omega

/-- A quotient below the middle of an interval is rounded to its lower end or less. -/
theorem roundQuotient_lt_of_lt {n d bound : ℕ} (hd : 0 < d) (h : 2 * n + d < 2 * (d * bound)) :
    roundQuotient n d < bound := by
  have hround := (two_mul_roundQuotient_mul_bounds n hd).1
  by_contra hge
  have hmul : d * bound ≤ d * roundQuotient n d := Nat.mul_le_mul_left d (Nat.le_of_not_lt hge)
  omega

/-- A quotient is rounded to a natural number that it reaches, or to a greater one. -/
theorem le_roundQuotient {n d bound : ℕ} (h : bound ≤ n / d) : bound ≤ roundQuotient n d := by
  unfold roundQuotient
  split
  · exact h
  · split <;> omega

/-- A quotient from the middle of an interval on is rounded to its upper end or more, if this end
is even. -/
theorem le_roundQuotient_of_even {n d bound : ℕ} (hd : 0 < d) (heven : bound % 2 = 0)
    (h : 2 * (d * bound) ≤ 2 * n + d) : bound ≤ roundQuotient n d := by
  have hdivision := Nat.div_add_mod n d
  have hremainder := Nat.mod_lt n hd
  rcases Nat.lt_or_ge (n / d) bound with hlow | hreached
  · have hnext : d * (n / d + 1) ≤ d * bound := Nat.mul_le_mul_left d hlow
    rw [Nat.mul_add] at hnext
    have hend : bound = n / d + 1 := by
      by_contra hbeyond
      have hmul : d * (n / d + 2) ≤ d * bound := Nat.mul_le_mul_left d (by omega)
      rw [Nat.mul_add] at hmul
      omega
    unfold roundQuotient
    split
    · omega
    · split <;> omega
  · exact le_roundQuotient hreached

namespace Binary64

/-- The least number that is past the finite range. -/
def finiteRange : ℕ := Nat.pow 2 1024 - Nat.pow 2 970

/-- Shifted by as many bits as its length exceeds 53, a quotient has no more than 53. -/
theorem lt_mul_pow_shift {m d : ℕ} (hd : 0 < d) :
    m < d * Nat.pow 2 ((m / d).log2 - 52) * Nat.pow 2 53 := by
  have hlog : (m / d).log2 + 1 ≤ (m / d).log2 - 52 + 53 := by omega
  have hquotient : m / d < 2 ^ ((m / d).log2 - 52 + 53) :=
    lt_of_lt_of_le Nat.lt_log2_self (Nat.pow_le_pow_right (by decide) hlog)
  have hmul := (Nat.div_lt_iff_lt_mul hd).1 hquotient
  rw [Nat.pow_add] at hmul
  simp only [Nat.pow_eq]
  linarith

/-- A number below a power of two is shorter than it. -/
theorem log2_lt_of_lt_pow {m k : ℕ} (hk : 0 < k) (h : m < Nat.pow 2 k) : m.log2 < k := by
  rcases Nat.eq_zero_or_pos m with hzero | hpos
  · rw [hzero]
    exact hk
  · exact (Nat.log2_lt hpos.ne').2 h

/-- A number is as long as a power of two that it reaches. -/
theorem le_log2_of_pow_le {m k : ℕ} (h : Nat.pow 2 k ≤ m) : k ≤ m.log2 := by
  have hpos : 0 < m := Nat.lt_of_lt_of_le (Nat.pow_pos (by decide)) h
  exact (Nat.le_log2 hpos.ne').2 h

/-- A quotient shifted by at most `last` bits has a pattern in or below the last binade if it
lies within a range that ends in the middle of the last interval there. -/
theorem pattern_lt {m d shift last range : ℕ} (hd : 0 < d) (hshift : shift ≤ last)
    (hshifted : m < d * Nat.pow 2 shift * Nat.pow 2 53)
    (hrange : 2 * range + Nat.pow 2 last = 2 * (Nat.pow 2 last * Nat.pow 2 53))
    (h : m < range * d) :
    shift * binade + roundQuotient m (d * Nat.pow 2 shift) < (last + 2) * binade := by
  have hcarry : Nat.pow 2 53 = 2 * binade := by decide
  have hpos : 0 < binade := by decide
  have hscaled : 0 < d * Nat.pow 2 shift := Nat.mul_pos hd (Nat.pow_pos (by decide))
  rcases Nat.lt_or_eq_of_le hshift with hlow | rfl
  · -- Below the last binade a carry only leads into the next one.
    have hround := roundQuotient_le_of_lt hscaled hshifted
    have hmul : (shift + 1) * binade ≤ last * binade := Nat.mul_le_mul_right _ hlow
    rw [Nat.add_mul] at hmul ⊢
    omega
  · have hend := congrArg (d * ·) hrange
    have hmiddle : 2 * m + d * Nat.pow 2 shift <
        2 * (d * Nat.pow 2 shift * Nat.pow 2 53) := by linarith
    have hround := roundQuotient_lt_of_lt hscaled hmiddle
    rw [Nat.add_mul]
    omega

/-- One is so many units as numbers with 324 digits denote. -/
theorem one_bounds : 10 ^ 323 < one ∧ one < 10 ^ 324 := by
  decide +kernel

/-- One is some number of units. -/
theorem one_pos : 0 < one :=
  (Nat.zero_le _).trans_lt one_bounds.1

/-- The end of the finite range is a number with 309 digits, not too close to the numbers with
a few digits followed by zeros below it. -/
theorem finiteRange_bounds : 10 ^ 308 + 10 ^ 302 < finiteRange ∧
    179769 * 10 ^ 303 < finiteRange ∧ finiteRange < 10 ^ 309 := by
  decide +kernel

/-- A quotient below the end of the finite range has a finite pattern. -/
theorem nearestPattern_lt {n d : ℕ} (hd : 0 < d) (h : n < finiteRange * d) :
    nearestPattern n d < infinityPattern := by
  have hunits : one * n < one * finiteRange * d := by
    have hmul := Nat.mul_lt_mul_of_pos_left h one_pos
    rwa [← Nat.mul_assoc] at hmul
  have hquotient := (Nat.div_lt_iff_lt_mul hd).2 hunits
  have hlog : (one * n / d).log2 < 2098 := by
    apply log2_lt_of_lt_pow (by decide)
    exact hquotient.trans (by decide +kernel)
  exact pattern_lt hd (by omega : (one * n / d).log2 - 52 ≤ 2045) (lt_mul_pow_shift hd)
    (by decide +kernel) hunits

/-- A quotient shifted by at least `last` bits has a pattern past the last binade if it reaches
the end of a range in the middle of the last interval there. -/
theorem le_pattern {m d shift last range : ℕ} (hd : 0 < d) (hshift : last ≤ shift)
    (hshifted : binade * (d * Nat.pow 2 shift) ≤ m)
    (hrange : 2 * range + Nat.pow 2 last = 2 * (Nat.pow 2 last * Nat.pow 2 53))
    (h : range * d ≤ m) :
    (last + 2) * binade ≤ shift * binade + roundQuotient m (d * Nat.pow 2 shift) := by
  have hcarry : Nat.pow 2 53 = 2 * binade := by decide
  have hscaled : 0 < d * Nat.pow 2 shift := Nat.mul_pos hd (Nat.pow_pos (by decide))
  rcases Nat.lt_or_eq_of_le hshift with hhigh | rfl
  · -- Past the last binade the shifted quotient alone is enough.
    have hround := le_roundQuotient ((Nat.le_div_iff_mul_le hscaled).2 hshifted)
    have hmul : (last + 1) * binade ≤ shift * binade := Nat.mul_le_mul_right _ hhigh
    rw [Nat.add_mul] at hmul ⊢
    omega
  · have hend := congrArg (d * ·) hrange
    have hmiddle : 2 * (d * Nat.pow 2 last * Nat.pow 2 53) ≤ 2 * m + d * Nat.pow 2 last := by
      linarith
    have hround := le_roundQuotient_of_even hscaled (by rw [hcarry]; omega) hmiddle
    rw [Nat.add_mul]
    omega

/-- A quotient from the end of the finite range on has no finite pattern. -/
theorem infinityPattern_le {n d : ℕ} (hd : 0 < d) (h : finiteRange * d ≤ n) :
    infinityPattern ≤ nearestPattern n d := by
  have hunits : one * finiteRange * d ≤ one * n := by
    rw [Nat.mul_assoc]
    exact Nat.mul_le_mul_left one h
  have hquotient := (Nat.le_div_iff_mul_le hd).2 hunits
  have hpositive : one * n / d ≠ 0 := by
    have hrange : 0 < one * finiteRange := by decide +kernel
    omega
  have hlog : 2097 ≤ (one * n / d).log2 :=
    le_log2_of_pow_le ((by decide +kernel : _ ≤ one * finiteRange).trans hquotient)
  have hshifted : binade * (d * Nat.pow 2 ((one * n / d).log2 - 52)) ≤ one * n := by
    have hpow := (Nat.le_div_iff_mul_le hd).1 (Nat.log2_self_le hpositive)
    have hsplit : 2 ^ (one * n / d).log2 = 2 ^ 52 * 2 ^ ((one * n / d).log2 - 52) := by
      rw [← Nat.pow_add, Nat.add_sub_cancel' (by omega)]
    rw [hsplit] at hpow
    simp only [binade, Nat.pow_eq]
    linarith
  exact le_pattern hd (by omega : 2045 ≤ (one * n / d).log2 - 52) hshifted (by decide +kernel)
    hunits

end Binary64

end Calculator.Number
