import Calculator.Formula.Render
import Calculator.Proofs.Significant
import Calculator.Proofs.Patterns
import Calculator.Proofs.Spelling
import Calculator.Proofs.Written

/-!
# Literals are read back

The text of a finite number without a minus sign is a single number token. Its digits are
those of the number rounded to significant digits, and rounding does not lead out of the finite
range, since the greatest number is well above its first six digits. A minus sign stands in
front of the text of the absolute value.
-/

namespace Calculator

namespace Number

/-- The greatest finite number. -/
def Binary64.greatest : ℕ := (Nat.pow 2 53 - 1) * Nat.pow 2 971

/-- The greatest number lies within the finite range, and its first six digits are rounded
down. -/
theorem Binary64.greatest_bounds :
    greatest < finiteRange ∧ 2 * greatest < 359539 * 10 ^ 303 := by
  decide +kernel

/-- No finite pattern has more units than the greatest number. -/
theorem Binary64.unitsOfPattern_le {pattern : ℕ} (h : pattern < infinityPattern) :
    unitsOfPattern pattern ≤ greatest * one := by
  have hlast : unitsOfPattern (infinityPattern - 1) = greatest * one := by decide +kernel
  rw [← hlast]
  exact unitsOfPattern_strictMono.monotone (Nat.le_pred_of_lt h)

/-- A finite number has no more units than the greatest one. -/
theorem Binary64.units_le_of_finite {x : Float} {negative : Bool} {units : ℕ}
    (h : ofFloat x = .finite negative units) : units ≤ greatest * one := by
  obtain ⟨pattern, hpattern, rfl⟩ := exists_pattern_of_finite h
  exact unitsOfPattern_le hpattern

/-- A quotient within the range and below a power of ten that the range exceeds stays within it
when it is rounded to a much smaller power. -/
theorem toRat_roundTo_lt_of_lt {n d : ℕ} (hd : 0 < d) {exponent : ℤ} (hexponent : exponent ≤ 302)
    (h : (n : ℚ) / d < (10 : ℚ) ^ (308 : ℤ)) :
    (roundTo n d exponent).toRat < Binary64.finiteRange := by
  have hround := (abs_le.1 (abs_toRat_roundTo_sub_le n hd exponent)).2
  have hpow : (10 : ℚ) ^ exponent ≤ (10 : ℚ) ^ (302 : ℤ) :=
    zpow_le_zpow_right₀ (by norm_num) hexponent
  have hrange : (10 : ℚ) ^ (308 : ℤ) + (10 : ℚ) ^ (302 : ℤ) < Binary64.finiteRange := by
    exact_mod_cast Binary64.finiteRange_bounds.1
  have hpos : (0 : ℚ) < (10 : ℚ) ^ exponent := zpow_pos (by norm_num) _
  generalize (10 : ℚ) ^ (308 : ℤ) = top at h hrange
  generalize (10 : ℚ) ^ (302 : ℤ) = step at hpow hrange
  linarith

/-- The greatest number, and any smaller one, stays within the range when it is rounded to the
sixth of its 309 digits. -/
theorem toRat_roundTo_lt_of_sixth {n d : ℕ} (hd : 0 < d) (h : (n : ℚ) / d ≤ Binary64.greatest) :
    (roundTo n d 303).toRat < Binary64.finiteRange := by
  have hmiddle : (n : ℚ) / d < ((179770 : ℕ) - 1 / 2) * (10 : ℚ) ^ (303 : ℤ) := by
    have hrat : 2 * (Binary64.greatest : ℚ) < 359539 * (10 : ℚ) ^ (303 : ℤ) := by
      exact_mod_cast Binary64.greatest_bounds.2
    rw [Nat.cast_ofNat]
    generalize (10 : ℚ) ^ (303 : ℤ) = step at hrat ⊢
    linarith
  have hcoefficient : ((roundTo n d 303).coefficient : ℚ) ≤ 179769 := by
    have := coefficient_roundTo_lt hd hmiddle
    exact_mod_cast Nat.le_of_lt_succ this
  have hrange : (179769 : ℚ) * (10 : ℚ) ^ (303 : ℤ) < Binary64.finiteRange := by
    exact_mod_cast Binary64.finiteRange_bounds.2.1
  refine lt_of_le_of_lt ?_ hrange
  exact mul_le_mul_of_nonneg_right hcoefficient (zpow_nonneg (by norm_num) _)

/-- A number within the range stays within it when it is rounded to six significant digits. -/
theorem toRat_roundSignificant_lt_finiteRange {n d : ℕ} (hn : 0 < n) (hd : 0 < d)
    (h : n ≤ Binary64.greatest * d) : (roundSignificant 5 n d).toRat < Binary64.finiteRange := by
  have hd' : (0 : ℚ) < d := by exact_mod_cast hd
  have hgreatest : (n : ℚ) / d ≤ Binary64.greatest := by
    rw [div_le_iff₀ hd']
    exact_mod_cast h
  obtain ⟨hlow, hhigh⟩ := pow_leadingExponent_bounds hn hd
  have hleading : leadingExponent n d < 309 := by
    have hrange : (Binary64.greatest : ℚ) < Binary64.finiteRange := by
      exact_mod_cast Binary64.greatest_bounds.1
    have hrat := hrange.trans Decimal.finiteRange_lt_pow
    exact (zpow_lt_zpow_iff_right₀ (by norm_num)).1 ((hlow.trans hgreatest).trans_lt hrat)
  rw [toRat_roundSignificant, Nat.cast_ofNat]
  rcases Int.lt_or_eq_of_le (by omega : leadingExponent n d ≤ 308) with hbelow | htop
  · refine toRat_roundTo_lt_of_lt hd (by omega) (hhigh.trans_le ?_)
    exact zpow_le_zpow_right₀ (by norm_num) (by omega)
  · rw [htop]
    exact toRat_roundTo_lt_of_sixth hd hgreatest

/-- A decimal in general notation, with an exponent or positionally. -/
def GeneralNotation.written (style : GeneralNotation) (rounded : Decimal) : List Char :=
  let leading := rounded.exponent + style.further
  if leading < style.leastPositional ∨ style.further < leading then
    Decimal.positional ⟨rounded.coefficient, -style.further⟩ ++ style.exponentSuffix leading
  else
    rounded.positional

/-- General notation writes a positive quotient rounded once, to significant digits, in the
positional form as in the other. -/
theorem GeneralNotation.magnitude_eq_written (style : GeneralNotation) {n d : ℕ} (hn : 0 < n)
    (hd : 0 < d) : style.magnitude n d = style.written (roundSignificant style.further n d) := by
  unfold magnitude written
  dsimp only
  rw [roundTo_roundSignificant style.further hn hd]

/-- A decimal in general notation is a complete numeral that denotes it. -/
theorem GeneralNotation.exists_numeral_of_written (style : GeneralNotation) (rounded : Decimal) :
    ∃ numeral : Numeral, numeral.IsComplete ∧ style.written rounded = numeral.text ∧
      numeral.value.toRat = rounded.toRat := by
  have hten : (10 : ℚ) ≠ 0 := by norm_num
  unfold written
  dsimp only
  split
  · obtain ⟨numeral, hcomplete, htext, hvalue⟩ := style.exists_numeral_of_exponent
      ⟨rounded.coefficient, -style.further⟩ (rounded.exponent + style.further)
    refine ⟨numeral, hcomplete, htext, ?_⟩
    rw [hvalue, Decimal.toRat, Decimal.toRat, mul_assoc, ← zpow_add₀ hten]
    simp
  · exact ⟨_, Decimal.isComplete_numeral _, Decimal.positional_eq_text _,
      Decimal.toRat_value_numeral _⟩

end Number

open Number

/-- The text of a positive finite number is the number rounded to significant digits. -/
theorem text_of_finite {x : Float} {units : ℕ} (h : Binary64.ofFloat x = .finite false units)
    (hunits : 0 < units) : literalNotation.text x =
      literalNotation.written (roundSignificant 5 units Binary64.one) := by
  have hmagnitude : literalNotation.magnitude units Binary64.one =
      literalNotation.written (roundSignificant 5 units Binary64.one) :=
    literalNotation.magnitude_eq_written hunits Binary64.one_pos
  rw [GeneralNotation.text, h]
  dsimp only
  rw [if_neg hunits.ne', hmagnitude]
  exact if_neg Bool.false_ne_true

/-- The text of zero without a minus sign. -/
theorem text_of_zero {x : Float} (h : Binary64.ofFloat x = .finite false 0) :
    literalNotation.text x = ['0'] := by
  rw [GeneralNotation.text, h]
  rfl

/-- The text of a finite number without a minus sign is a complete numeral that denotes the
number rounded to significant digits, and it can be read. -/
theorem exists_numeral_of_finite {x : Float} {units : ℕ}
    (h : Binary64.ofFloat x = .finite false units) :
    ∃ (numeral : Numeral) (value : Float), numeral.IsComplete ∧
      literalNotation.text x = numeral.text ∧
      numeral.value.toRat = (roundSignificant 5 units Binary64.one).toRat ∧
      numeral.value.toFloat? = some value := by
  rcases Nat.eq_zero_or_pos units with rfl | hunits
  · rw [text_of_zero h, toRat_roundSignificant_zero]
    refine ⟨⟨['0'], none, none⟩, 0.0, by decide, rfl, ?_, rfl⟩
    simp [Numeral.value, Decimal.toRat, Nat.ofDigitChars]
  · obtain ⟨numeral, hcomplete, htext, hvalue⟩ :=
      literalNotation.exists_numeral_of_written (roundSignificant 5 units Binary64.one)
    have hrange := toRat_roundSignificant_lt_finiteRange hunits Binary64.one_pos
      (Binary64.units_le_of_finite h)
    obtain ⟨value, hread⟩ := Decimal.toFloat?_isSome (hvalue.trans_lt hrange)
    exact ⟨numeral, value, hcomplete, (text_of_finite h hunits).trans htext, hvalue, hread⟩

/-- The text of a finite number with a minus sign is this sign and the text of the absolute
value. -/
theorem text_of_finite_true {x : Float} {units : ℕ}
    (h : Binary64.ofFloat x = .finite true units) :
    literalNotation.text x = '-' :: literalNotation.text x.abs := by
  rw [GeneralNotation.text, GeneralNotation.text, h, Binary64.ofFloat_abs h]
  rfl

/-- A text that is a complete numeral within the finite range is a single token. -/
theorem tokenize_of_numeral {text : String} {numeral : Numeral} {value : Float}
    (hcomplete : numeral.IsComplete) (htext : text.toList = numeral.text)
    (hvalue : numeral.value.toFloat? = some value) :
    tokenize text = .ok ⟨[⟨.number value, 0⟩], text.utf8ByteSize⟩ := by
  have htoken : (Lexeme.numeral numeral).token? = some (.number value) := by
    simp [Lexeme.token?, hvalue]
  obtain ⟨c, cs, hcons, hblank⟩ := hcomplete.exists_cons_text
  have hscan := Lexeme.scan?_numeral_append hcomplete cuts_nil
  rw [List.append_nil, hcons] at hscan
  have hread := Cursor.tokens_of_scan? hblank hscan htoken 0
  rw [Cursor.tokens_nil] at hread
  unfold tokenize Cursor.start
  rw [htext, hcons, hread]
  rfl

/-- The number that the text of a number denotes as a token. -/
def rereadNumber (x : Float) : Float :=
  match tokenize (numberText x) with
  | .ok ⟨[⟨.number value, _⟩], _⟩ => value
  | _ => x

/-- What is written as a complete numeral is read back as what the numeral is read as. -/
theorem rereadNumber_of_text {x value : Float} {numeral : Numeral} (h : numeral.IsComplete)
    (htext : literalNotation.text x = numeral.text) (hvalue : numeral.value.toFloat? = some value) :
    rereadNumber x = value := by
  have hnumber : (numberText x).toList = numeral.text := by
    rw [numberText, String.toList_ofList, htext]
  rw [rereadNumber, tokenize_of_numeral h hnumber hvalue]

/-- The number read back from the text of a finite number without a minus sign is what reading
this number rounded to significant digits gives, and it is spelled by the text. -/
theorem exists_numeral_of_rereadNumber {x : Float} {units : ℕ}
    (h : Binary64.ofFloat x = .finite false units) :
    ∃ numeral : Numeral, numeral.IsComplete ∧ literalNotation.text x = numeral.text ∧
      numeral.value.toRat = (roundSignificant 5 units Binary64.one).toRat ∧
      numeral.value.toFloat? = some (rereadNumber x) := by
  obtain ⟨numeral, value, hcomplete, htext, hrounded, hvalue⟩ := exists_numeral_of_finite h
  refine ⟨numeral, hcomplete, htext, hrounded, ?_⟩
  rw [hvalue, rereadNumber_of_text hcomplete htext hvalue]

/-- The text of a finite number without a minus sign spells the number read back from it. -/
theorem spells_text {x : Float} {units : ℕ} (h : Binary64.ofFloat x = .finite false units) :
    Spells (literalNotation.text x) [.number (rereadNumber x)] := by
  obtain ⟨numeral, hcomplete, htext, _, hvalue⟩ := exists_numeral_of_rereadNumber h
  exact htext ▸ Spells.numeral hcomplete hvalue

end Calculator
