import Calculator.Proofs.Nearest
import Calculator.Proofs.Rereading
import Calculator.Proofs.Significant

/-!
# Ties go to even numbers

A finite number denotes a rational number, and another rational number is rounded to the finite
number nearest to it. Where two are as near as each other, the last bit of the one that is taken is
zero. No two numbers are nearest in this sense, since there is an odd one between any two even ones.

The pattern that a quotient is rounded to has the parity of its rounded significand, so a tie
leaves an even pattern. No finite number with a minus sign is as near to a quotient as zero is.
-/

namespace Calculator.Number

/-- A quotient is rounded to an even number if another natural number is as near. -/
theorem even_roundQuotient_of_tie {n d k : ℕ} (hd : 0 < d) (hne : k ≠ roundQuotient n d)
    (htie : |(k : ℚ) - (n : ℚ) / d| = |(roundQuotient n d : ℚ) - (n : ℚ) / d|) :
    roundQuotient n d % 2 = 0 := by
  have hhalf := half_le_abs_sub_of_ne hd hne
  rw [htie] at hhalf
  exact even_of_abs_roundQuotient_sub hd (le_antisymm (abs_roundQuotient_sub_le n hd) hhalf)

namespace Binary64

/-- The finite range ends halfway between the greatest finite number and the next power of two. -/
theorem cast_finiteRange : (finiteRange : ℚ) = 2 ^ 1024 - 2 ^ 970 := by
  unfold finiteRange
  -- The powers are too large to be evaluated.
  generalize hhigh : 1024 = high, hlow : 970 = low
  have hle : 2 ^ low ≤ 2 ^ high := Nat.pow_le_pow_right (by decide) (by omega)
  rw [Nat.pow_eq, Nat.pow_eq, Nat.cast_sub hle, Nat.cast_pow, Nat.cast_pow, Nat.cast_ofNat]

/-- The nearest pattern is even or odd as the rounded significand is. -/
theorem nearestPattern_mod_two (n d : ℕ) : nearestPattern n d % 2 =
    roundQuotient (one * n) (d * Nat.pow 2 (excess (one * n) d)) % 2 := by
  have hpattern : nearestPattern n d = excess (one * n) d * binade +
      roundQuotient (one * n) (d * Nat.pow 2 (excess (one * n) d)) := rfl
  rw [hpattern, binade_eq]
  omega

/-- The nearest pattern is even if other units are as near to the quotient. -/
theorem even_nearestPattern_of_tie (n : ℕ) {d pattern : ℕ} (hd : 0 < d)
    (hne : unitsOfPattern pattern ≠ unitsOfPattern (nearestPattern n d))
    (htie : |(unitsOfPattern pattern : ℚ) - (one * n : ℕ) / d| =
      |(unitsOfPattern (nearestPattern n d) : ℚ) - (one * n : ℕ) / d|) :
    nearestPattern n d % 2 = 0 := by
  rw [unitsOfPattern_nearestPattern n hd] at hne htie
  rw [nearestPattern_mod_two]
  generalize one * n = m at hne htie ⊢
  have hscaled : 0 < d * Nat.pow 2 (excess m d) := Nat.mul_pos hd (Nat.pow_pos (by decide))
  have hpow : ((Nat.pow 2 (excess m d) : ℕ) : ℚ) ≠ 0 := by
    exact_mod_cast (Nat.pow_pos (by decide)).ne'
  obtain ⟨multiple, hsame | hnearer⟩ := exists_multiple_nearer (m := m) hd pattern
  · rw [hsame] at hne htie
    rw [abs_mul_pow_sub, abs_mul_pow_sub] at htie
    refine even_roundQuotient_of_tie hscaled ?_ (mul_right_cancel₀ hpow htie)
    rintro rfl
    exact hne rfl
  · -- A multiple that is nearer than the tie would be nearer than the rounded one.
    rw [htie] at hnearer
    exact absurd hnearer (not_lt.2 (abs_rounded_multiple_sub_le m hd multiple))

/-- The rational number that a finite number denotes. -/
def toRat : Binary64 → ℚ
  | .finite false units => units / one
  | .finite true units => -(units / one)
  | _ => 0

/-- A finite number is the one that a rational number is rounded to: no other is closer, and its
last bit is zero if another one is as close. -/
structure IsNearestEven (q : ℚ) (x : Float) : Prop where
  finite : (ofFloat x).isFinite = true
  closest : ∀ y, (ofFloat y).isFinite = true →
    |(ofFloat x).toRat - q| ≤ |(ofFloat y).toRat - q|
  even : ∀ y, (ofFloat y).isFinite = true → (ofFloat y).toRat ≠ (ofFloat x).toRat →
    |(ofFloat y).toRat - q| = |(ofFloat x).toRat - q| → x.toBits.toNat % 2 = 0

/-- A number denotes the units of a finite pattern. -/
structure HasPattern (x : Float) (pattern : ℕ) : Prop where
  finite : pattern < infinityPattern
  units : ∃ negative, ofFloat x = .finite negative (unitsOfPattern pattern)
  denotes : (ofFloat x).toRat = (unitsOfPattern pattern : ℚ) / one

/-- The last bit of a number is that of its pattern. -/
theorem HasPattern.toBits_mod_two {x : Float} {pattern : ℕ} (h : HasPattern x pattern) :
    x.toBits.toNat % 2 = pattern % 2 := by
  obtain ⟨negative, hunits⟩ := h.units
  unfold ofFloat at hunits
  dsimp only at hunits
  split at hunits
  · have hpattern := unitsOfPattern_strictMono.injective (Binary64.finite.inj hunits).2
    rw [← hpattern, signBit_eq]
    omega
  · split at hunits <;> cases hunits

/-- A number with the units of a pattern and without a minus sign denotes them. -/
theorem hasPattern_of_finite {x : Float} {pattern : ℕ}
    (h : ofFloat x = .finite false (unitsOfPattern pattern)) : HasPattern x pattern := by
  obtain ⟨pattern', hfinite, hunits⟩ := exists_pattern_of_finite h
  obtain rfl := unitsOfPattern_strictMono.injective hunits
  exact ⟨hfinite, ⟨false, h⟩, by rw [h]; rfl⟩

/-- A finite number has a pattern, or zero is nearer to a rational number that is not negative. -/
theorem exists_pattern_or_nearer {q : ℚ} (hq : 0 ≤ q) {y : Float}
    (hy : (ofFloat y).isFinite = true) : (∃ pattern, HasPattern y pattern) ∨
      |(unitsOfPattern 0 : ℚ) / one - q| < |(ofFloat y).toRat - q| := by
  obtain ⟨negative, units, hunits⟩ := exists_of_isFinite hy
  obtain ⟨pattern, hpattern, rfl⟩ := exists_pattern_of_finite hunits
  have hzero : unitsOfPattern 0 = 0 := rfl
  cases negative with
  | false => exact .inl ⟨pattern, hasPattern_of_finite hunits⟩
  | true =>
    rcases Nat.eq_zero_or_pos (unitsOfPattern pattern) with hnone | hpos
    · refine .inl ⟨pattern, hpattern, ⟨true, hunits⟩, ?_⟩
      rw [hunits, hnone, toRat, Nat.cast_zero, zero_div, neg_zero]
    · right
      have hdenoted : (0 : ℚ) < (unitsOfPattern pattern : ℚ) / one :=
        div_pos (by exact_mod_cast hpos) cast_one_pos
      rw [hunits, toRat, hzero, Nat.cast_zero, zero_div, zero_sub, abs_neg, abs_of_nonneg hq,
        ← abs_neg, abs_of_nonneg (by linarith)]
      linarith

/-- The number of the nearest pattern is what the quotient is rounded to. -/
theorem isNearestEven_of_nearestPattern {n d : ℕ} (hd : 0 < d) {x : Float}
    (h : ofFloat x = .finite false (unitsOfPattern (nearestPattern n d))) :
    IsNearestEven ((n : ℚ) / d) x := by
  have hq : (0 : ℚ) ≤ (n : ℚ) / d := div_nonneg (Nat.cast_nonneg n) (Nat.cast_nonneg d)
  have hclosest := (isNearest_nearestPattern n hd).closest
  have hx := hasPattern_of_finite h
  refine ⟨by rw [h]; rfl, ?_, ?_⟩
  · intro y hy
    rw [hx.denotes]
    rcases exists_pattern_or_nearer hq hy with ⟨pattern, hpattern⟩ | hnearer
    · rw [hpattern.denotes]
      exact hclosest pattern
    · exact (hclosest 0).trans hnearer.le
  · intro y hy hne htie
    rw [hx.denotes] at hne htie
    rcases exists_pattern_or_nearer hq hy with ⟨pattern, hpattern⟩ | hnearer
    · rw [hpattern.denotes] at hne htie
      rw [hx.toBits_mod_two]
      refine even_nearestPattern_of_tie n hd (fun hsame => hne (by rw [hsame])) ?_
      rw [abs_div_one_sub, abs_div_one_sub] at htie
      exact (div_left_inj' cast_one_pos.ne').1 htie
    · rw [htie] at hnearer
      exact absurd (hclosest 0) (not_le.2 hnearer)

namespace IsNearestEven

variable {q : ℚ} {x y : Float}

/-- What a rational number that is not negative is rounded to has a pattern. -/
theorem exists_pattern (hq : 0 ≤ q) (h : IsNearestEven q x) : ∃ pattern, HasPattern x pattern := by
  rcases exists_pattern_or_nearer hq h.finite with hpattern | hnearer
  · exact hpattern
  · exact absurd (h.closest 0.0 rfl) (not_le.2 hnearer)

/-- Of two numbers that a rational number is rounded to neither has the lesser pattern. -/
theorem not_pattern_lt (hx : IsNearestEven q x) (hy : IsNearestEven q y) {pattern other : ℕ}
    (hpattern : HasPattern x pattern) (hother : HasPattern y other) : ¬ pattern < other := by
  intro hlt
  have hless (p p' : ℕ) (h : p < p') :
      (unitsOfPattern p : ℚ) / one < (unitsOfPattern p' : ℚ) / one := by
    have hunits : (unitsOfPattern p : ℚ) < unitsOfPattern p' := by
      exact_mod_cast unitsOfPattern_strictMono h
    exact div_lt_div_of_pos_right hunits cast_one_pos
  have htie := le_antisymm (hx.closest y hy.finite) (hy.closest x hx.finite)
  have hne : (ofFloat x).toRat ≠ (ofFloat y).toRat := by
    rw [hpattern.denotes, hother.denotes]
    exact (hless pattern other hlt).ne
  -- Both patterns are even, so the one after the lesser stands between them and is nearer.
  have heven := hx.even y hy.finite hne.symm htie.symm
  have heven' := hy.even x hx.finite hne htie
  rw [hpattern.toBits_mod_two] at heven
  rw [hother.toBits_mod_two] at heven'
  have hbetween : pattern + 1 < other := by omega
  have hmiddle := ofFloat_ofBits (hbetween.trans hother.finite)
  have hcloser := hx.closest (Float.ofBits (pattern + 1).toUInt64) (by rw [hmiddle]; rfl)
  have hlow := hless pattern (pattern + 1) (Nat.lt_succ_self _)
  have hhigh := hless (pattern + 1) other hbetween
  rw [hmiddle, toRat, hpattern.denotes] at hcloser
  rw [hpattern.denotes, hother.denotes] at htie
  generalize (unitsOfPattern pattern : ℚ) / one = a at hlow htie hcloser
  generalize (unitsOfPattern (pattern + 1) : ℚ) / one = b at hlow hhigh hcloser
  generalize (unitsOfPattern other : ℚ) / one = c at hhigh htie
  rcases abs_eq_abs.1 htie with hsame | hopposite
  · linarith
  · have hdistance : |a - q| = c - q := by
      rw [htie, abs_of_pos]
      linarith
    rw [hdistance] at hcloser
    have hinside : |b - q| < c - q := abs_lt.2 ⟨by linarith, by linarith⟩
    exact absurd hcloser (not_le.2 hinside)

/-- A rational number that is not negative is rounded to only one number without a minus sign. -/
theorem unique (hq : 0 ≤ q) (hx : IsNearestEven q x) (hy : IsNearestEven q y)
    (hxSign : (ofFloat x).isNegative = false) (hySign : (ofFloat y).isNegative = false) :
    x = y := by
  obtain ⟨pattern, hpattern⟩ := hx.exists_pattern hq
  obtain ⟨other, hother⟩ := hy.exists_pattern hq
  obtain rfl : pattern = other :=
    Nat.le_antisymm (Nat.le_of_not_lt (hy.not_pattern_lt hx hother hpattern))
      (Nat.le_of_not_lt (hx.not_pattern_lt hy hpattern hother))
  obtain ⟨negative, hunits⟩ := hpattern.units
  obtain ⟨negative', hunits'⟩ := hother.units
  rw [hunits] at hxSign
  rw [hunits'] at hySign
  obtain rfl : negative = false := hxSign
  obtain rfl : negative' = false := hySign
  exact eq_of_finite hunits hunits'

end IsNearestEven

end Binary64

namespace Decimal

variable {number : Decimal} {value : Float}

/-- A decimal is read as the number that it is rounded to. -/
theorem isNearestEven_of_toFloat? (h : number.toFloat? = some value) :
    Binary64.IsNearestEven number.toRat value := by
  rw [toRat_eq_div]
  exact Binary64.isNearestEven_of_nearestPattern number.denominator_pos (ofFloat_nearestPattern h)

/-- A decimal is read as zero exactly if it is no more than half a unit. -/
theorem eq_zero_iff_of_toFloat? (h : number.toFloat? = some value) :
    value = 0.0 ↔ number.toRat ≤ 1 / (2 * (Binary64.one : ℚ)) := by
  have hvalue := ofFloat_nearestPattern h
  have hden : (0 : ℚ) < number.denominator := by exact_mod_cast number.denominator_pos
  have hunits : (0 : ℚ) < 2 * Binary64.one := by linarith [Binary64.cast_one_pos]
  have hhalf : number.toRat ≤ 1 / (2 * (Binary64.one : ℚ)) ↔
      2 * (Binary64.one * number.numerator) ≤ number.denominator := by
    rw [toRat_eq_div, div_le_div_iff₀ hden hunits, one_mul, mul_comm, mul_assoc]
    exact_mod_cast Iff.rfl
  rw [hhalf, ← Binary64.nearestPattern_eq_zero_iff number.denominator_pos]
  constructor
  · rintro rfl
    have hnone := (Binary64.finite.inj (hvalue.symm.trans Binary64.ofFloat_zero)).2
    exact Binary64.unitsOfPattern_strictMono.injective hnone
  · intro hpattern
    rw [hpattern] at hvalue
    exact Binary64.eq_of_finite hvalue Binary64.ofFloat_zero

end Decimal

end Calculator.Number
