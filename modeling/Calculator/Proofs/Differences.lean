import Calculator.Proofs.Patterns

/-!
# Differences of finite numbers

Subtraction rounds, but two finite numbers have the difference zero only if they are equal: the
last places of both are no smaller than a unit, so their exact difference is some units, and
rounding a positive number of units keeps its leading bit.
-/

namespace Calculator.Number.Binary64

open Float.Model (Format UnpackedFloat totalExponent)
open Float.Model.UnpackedFloat

section Rounding

/-- The last place of a rounded number is its 53rd bit or a unit. -/
theorem targetExponent_eq (leading : ℤ) :
    Format.binary64.targetExponent leading = max (leading - 53) (-1074) :=
  rfl

/-- Shifting to the right divides by a power of two. -/
theorem mantissa_shiftRight (extended : ExtendedMantissa) (count : ℕ) :
    (extended >>> count).mantissa = extended.mantissa / 2 ^ count := by
  change (count.repeat ExtendedMantissa.shiftRightOne extended).mantissa = _
  induction count with
  | zero => rw [Nat.repeat, Nat.pow_zero, Nat.div_one]
  | succ count ih =>
    rw [Nat.repeat, ExtendedMantissa.shiftRightOne, ih, Nat.div_div_eq_div_mul, Nat.pow_succ]

/-- A mantissa is rounded down or up. -/
theorem le_roundedMantissa (extended : ExtendedMantissa) :
    extended.mantissa ≤ extended.roundedMantissa := by
  unfold ExtendedMantissa.roundedMantissa Accuracy.roundToNearestEven
  split <;> omega

/-- A positive number of units stays positive when it is shifted to its last place, and has at
most 53 bits there. -/
theorem shiftToTargetExponent_bounds {mantissa : ℕ} (hpos : 0 < mantissa) {exponent : ℤ}
    (hunits : -1074 ≤ exponent) :
    0 < (shiftToTargetExponent Format.binary64 mantissa exponent .exact).1.mantissa ∧
      (shiftToTargetExponent Format.binary64 mantissa exponent .exact).1.mantissa < 2 ^ 53 ∧
      -1074 ≤ (shiftToTargetExponent Format.binary64 mantissa exponent .exact).2 := by
  have hlow := Nat.log2_self_le hpos.ne'
  have hhigh : mantissa < 2 ^ (mantissa.log2 + 1) := Nat.lt_log2_self
  simp only [shiftToTargetExponent, shiftToExponent, mantissa_shiftRight, targetExponent_eq,
    totalExponent, ExtendedMantissa.ofMantissaAndAccuracy]
  generalize hcount : (max ((mantissa.log2 : ℤ) + 1 + exponent - 53) (-1074) - exponent).toNat =
    count
  refine ⟨?_, ?_, by omega⟩
  · have hpow : 2 ^ count ≤ 2 ^ mantissa.log2 := Nat.pow_le_pow_right (by decide) (by omega)
    exact Nat.div_pos (hpow.trans hlow) (Nat.two_pow_pos _)
  · have hpow : 2 ^ (mantissa.log2 + 1) ≤ 2 ^ (53 + count) :=
      Nat.pow_le_pow_right (by decide) (by omega)
    rw [Nat.div_lt_iff_lt_mul (Nat.two_pow_pos _), ← Nat.pow_add]
    exact hhigh.trans_le hpow

/-- A number that is neither zero nor undefined. -/
def IsNonzero : UnpackedFloat → Prop
  | .finite _ _ _ _ | .infinity _ => True
  | _ => False

/-- A finite number other than zero that packing does not lose: its significand has at most 53
bits, and its last place is not below the unit. -/
def FitsNonzero : UnpackedFloat → Prop
  | .finite _ mantissa exponent _ => mantissa < 2 ^ 53 ∧ -1074 ≤ exponent
  | _ => False

/-- A positive number of units is not rounded to zero. -/
theorem fitsNonzero_roundWithAccuracy (sign : UnpackedFloat.Sign) {mantissa : ℕ}
    (hpos : 0 < mantissa) {exponent : ℤ} (hunits : -1074 ≤ exponent) :
    FitsNonzero (roundWithAccuracy Format.binary64 sign mantissa exponent .exact) := by
  obtain ⟨hshifted, _, hplace⟩ := shiftToTargetExponent_bounds hpos hunits
  unfold roundWithAccuracy
  dsimp only
  generalize shiftToTargetExponent Format.binary64 mantissa exponent .exact = shifted at *
  -- Rounding up may carry into one more bit, so there is a second shift.
  have hrounded := hshifted.trans_le (le_roundedMantissa shifted.1)
  obtain ⟨hpositive, hfits, hplace'⟩ := shiftToTargetExponent_bounds hrounded hplace
  rw [dif_neg hpositive.ne']
  exact ⟨hfits, hplace'⟩

/-- A positive number of units is not rounded to zero, wherever its last place is. -/
theorem fitsNonzero_round (sign : UnpackedFloat.Sign) {mantissa : ℕ}
    (hpos : 0 < mantissa) {exponent : ℤ} (hunits : -1074 ≤ exponent) :
    FitsNonzero (UnpackedFloat.round Format.binary64 sign mantissa exponent) := by
  unfold UnpackedFloat.round decreaseExponent
  dsimp only
  apply fitsNonzero_roundWithAccuracy
  · rw [Nat.shiftLeft_eq]
    exact Nat.mul_pos hpos (Nat.two_pow_pos _)
  · rw [targetExponent_eq]
    omega

/-- A number of units that is not zero is not rounded to zero. -/
theorem fitsNonzero_normalize {mantissa : ℤ} (h : mantissa ≠ 0) {exponent : ℤ}
    (hunits : -1074 ≤ exponent) (zeroSign : UnpackedFloat.Sign) :
    FitsNonzero (UnpackedFloat.normalize Format.binary64 mantissa exponent zeroSign) := by
  unfold UnpackedFloat.normalize
  split
  · rename_i hnegative
    have hless := Int.compare_eq_lt.1 hnegative
    exact fitsNonzero_round .negative (by omega) hunits
  · rename_i hzero
    exact absurd (Int.compare_eq_eq.1 hzero) h
  · rename_i hpositive
    have hgreater := Int.compare_eq_gt.1 hpositive
    exact fitsNonzero_round .positive (by omega) hunits

end Rounding

/-- A finite number is taken apart into a zero or into a significand and the place of its last
bit, with its units. -/
theorem unpack_of_finite {x : Float} {negative : Bool} {units : ℕ}
    (h : ofFloat x = .finite negative units) :
    x.toModel.unpack = .zero (signField negative) ∧ units = 0 ∨
      ∃ mantissa exponent hpos,
        x.toModel.unpack = .finite (signField negative) mantissa exponent hpos ∧
        mantissa < 2 ^ 53 ∧ -1074 ≤ exponent ∧
        units = mantissa * 2 ^ (exponent + 1074).toNat := by
  obtain ⟨exponent, mantissa, hfinite, hword, _⟩ := exists_word_of_finite h
  have hunits := (Binary64.finite.inj (h.symm.trans (ofFloat_of_word hfinite hword))).2
  have hunpack : x.toModel.unpack = ofFields (signField negative) exponent mantissa := by
    rw [← unpack_word, ← hword]
    rfl
  have hmantissa : mantissa.toNat < 2 ^ 52 := mantissa.isLt
  have hbinade : binade = 2 ^ 52 := rfl
  rw [hunpack, hunits]
  unfold ofFields
  rw [if_neg hfinite]
  by_cases hfirst : exponent = 0#11
  · -- Without the leading bit the last place is the unit.
    subst hfirst
    have hpattern : unitsOfPattern ((0#11).toNat * binade + mantissa.toNat) = mantissa.toNat := by
      have hadd : unitsOfPattern (0 * binade + mantissa.toNat) = mantissa.toNat * Nat.pow 2 0 :=
        unitsOfPattern_add (.inl rfl) (by omega)
      simpa using hadd
    rw [if_pos rfl, hpattern]
    by_cases hnone : mantissa = 0#52
    · left
      rw [dif_pos hnone, hnone]
      exact ⟨rfl, rfl⟩
    · right
      rw [dif_neg hnone]
      exact ⟨_, _, _, rfl, by omega, by decide, by simp⟩
  · right
    have hpos : exponent.toNat ≠ 0 := fun hzero => hfirst (BitVec.eq_of_toNat_eq hzero)
    obtain ⟨shift, hshift⟩ := Nat.exists_eq_succ_of_ne_zero hpos
    have hpattern : unitsOfPattern (exponent.toNat * binade + mantissa.toNat) =
        (binade + mantissa.toNat) * Nat.pow 2 shift := by
      rw [hshift, Nat.succ_mul, Nat.add_assoc, unitsOfPattern_add (.inr (by omega)) (by omega)]
    have hplace : ((exponent.toNat : ℤ) - 1075 + 1074).toNat = shift := by omega
    rw [if_neg hfirst, hpattern]
    refine ⟨_, _, _, rfl, ?_, by omega, ?_⟩
    · rw [toNat_one_append]
      omega
    · rw [toNat_one_append, hplace, Nat.pow_eq]

/-- A number that packing does not lose is unpacked as a number that is not zero. -/
theorem isNonzero_unpack_pack {number : UnpackedFloat} (h : FitsNonzero number) :
    IsNonzero (unpack Format.binary64 (pack Format.binary64 number)) := by
  cases number with
  | finite sign mantissa exponent hpos =>
    obtain ⟨hfits, hplace⟩ := h
    change IsNonzero (unpack Format.binary64 (if 2 ^ 11 ≤ (exponent + 1023 + 52).toNat + 1 then
        word sign (-1#11) 0#52
      else if mantissa.log2 + 1 = 53 then
        word sign (BitVec.ofNat 11 (exponent + 1023 + 52).toNat) (BitVec.ofNat 52 mantissa)
      else word sign 0#11 (BitVec.ofNat 52 mantissa)))
    split
    · rw [unpack_word, ofFields, if_pos rfl, if_pos rfl]
      trivial
    · rename_i hrange
      split
      · -- A full significand has an exponent field that is neither zero nor all ones.
        have hfield : (BitVec.ofNat 11 (exponent + 1023 + 52).toNat).toNat =
            (exponent + 1023 + 52).toNat := Nat.mod_eq_of_lt (by omega)
        have hlast : BitVec.ofNat 11 (exponent + 1023 + 52).toNat ≠ -1#11 := by
          intro hall
          rw [hall] at hfield
          have hones : (-1#11).toNat = 2047 := rfl
          omega
        have hfirst : BitVec.ofNat 11 (exponent + 1023 + 52).toNat ≠ 0#11 := by
          intro hnone
          rw [hnone] at hfield
          have hzero : (0#11).toNat = 0 := rfl
          omega
        rw [unpack_word, ofFields, if_neg hlast, if_neg hfirst]
        trivial
      · rename_i hshort
        have hlog : mantissa.log2 < 53 := (Nat.log2_lt hpos.ne').2 hfits
        have hless : mantissa < 2 ^ 52 := (Nat.log2_lt hpos.ne').1 (by omega)
        have hsome : BitVec.ofNat 52 mantissa ≠ 0#52 := by
          intro hnone
          have hzero : (BitVec.ofNat 52 mantissa).toNat = 0 := congrArg BitVec.toNat hnone
          rw [BitVec.toNat_ofNat, Nat.mod_eq_of_lt hless] at hzero
          omega
        rw [unpack_word, ofFields, if_neg (by decide), if_pos rfl, dif_neg hsome]
        trivial
  | _ => exact h.elim

/-- The difference of a finite number from itself is zero. -/
theorem sub_self_of_finite {x : Float} {units : ℕ} (h : ofFloat x = .finite false units) :
    x - x = 0.0 := by
  have hdifference : x - x = .ofModel (.pack
      (sub Format.binary64 x.toModel.unpack x.toModel.unpack)) := rfl
  have hzero : sub Format.binary64 x.toModel.unpack x.toModel.unpack = .zero .positive := by
    rcases unpack_of_finite h with ⟨hunpack, _⟩ | ⟨mantissa, exponent, hpos, hunpack, _⟩
    · rw [hunpack]
      rfl
    · rw [hunpack]
      change UnpackedFloat.normalize Format.binary64
        (((mantissa <<< (exponent - min exponent exponent).toNat : ℕ) : ℤ) -
          (mantissa <<< (exponent - min exponent exponent).toNat : ℕ))
        (min exponent exponent) .positive = _
      rw [Int.sub_self]
      rfl
  rw [hdifference, hzero]
  rfl

/-- The difference of two finite numbers with different units is not zero. -/
theorem isNonzero_unpack_sub {x y : Float} {units units' : ℕ}
    (hx : ofFloat x = .finite false units) (hy : ofFloat y = .finite false units')
    (hne : units ≠ units') : IsNonzero (x - y).toModel.unpack := by
  apply isNonzero_unpack_pack
  rcases unpack_of_finite hx with ⟨hunpack, hnone⟩ |
      ⟨mantissa, exponent, hpos, hunpack, hfits, hplace, hunits⟩ <;>
    rcases unpack_of_finite hy with ⟨hunpack', hnone'⟩ |
      ⟨mantissa', exponent', hpos', hunpack', hfits', hplace', hunits'⟩ <;>
    rw [hunpack, hunpack']
  · exact absurd (hnone.trans hnone'.symm) hne
  · exact ⟨hfits', hplace'⟩
  · exact ⟨hfits, hplace⟩
  · change FitsNonzero (UnpackedFloat.normalize Format.binary64
      (((mantissa <<< (exponent - min exponent exponent').toNat : ℕ) : ℤ) -
        (mantissa' <<< (exponent' - min exponent exponent').toNat : ℕ))
      (min exponent exponent') .positive)
    apply fitsNonzero_normalize ?_ (by omega)
    intro hzero
    apply hne
    have hplaces : (exponent + 1074).toNat = (exponent - min exponent exponent').toNat +
        (min exponent exponent' + 1074).toNat := by omega
    have hplaces' : (exponent' + 1074).toNat = (exponent' - min exponent exponent').toNat +
        (min exponent exponent' + 1074).toNat := by omega
    have hsame : mantissa * 2 ^ (exponent - min exponent exponent').toNat =
        mantissa' * 2 ^ (exponent' - min exponent exponent').toNat := by
      rw [← Nat.shiftLeft_eq, ← Nat.shiftLeft_eq]
      omega
    rw [hunits, hunits', hplaces, hplaces', Nat.pow_add, Nat.pow_add, ← Nat.mul_assoc,
      ← Nat.mul_assoc, hsame]

/-- Zero is unpacked as zero. -/
theorem unpack_zero : (0.0 : Float).toModel.unpack = .zero .positive := by
  rcases unpack_of_finite ofFloat_zero with ⟨hunpack, _⟩ |
      ⟨mantissa, exponent, hpos, _, _, _, hunits⟩
  · exact hunpack
  · exact absurd hunits (Nat.mul_pos hpos (Nat.two_pow_pos _)).ne

/-- Zero divided by a number that is not zero is zero, with one sign or the other. -/
theorem zero_div_of_isNonzero {x : Float} (h : IsNonzero x.toModel.unpack) :
    0.0 / x = 0.0 ∨ 0.0 / x = -0.0 := by
  have hquotient : 0.0 / x = .ofModel (.pack
      (div Format.binary64 (0.0 : Float).toModel.unpack x.toModel.unpack)) := rfl
  rw [hquotient, unpack_zero]
  cases hunpack : x.toModel.unpack with
  | notANumber => exact (hunpack ▸ h).elim
  | zero sign => exact (hunpack ▸ h).elim
  | infinity sign =>
    cases sign
    · exact .inr rfl
    · exact .inl rfl
  | finite sign mantissa exponent hpos =>
    cases sign
    · exact .inr rfl
    · exact .inl rfl

end Calculator.Number.Binary64
