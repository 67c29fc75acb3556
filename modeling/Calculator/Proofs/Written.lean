import Calculator.Number.General
import Calculator.Proofs.DecimalValue
import Calculator.Proofs.Lexemes

/-!
# Decimals as they are written

A decimal written positionally is the text of a complete numeral, and so is one with an
exponent put after it. The numeral denotes the decimal that was written: the zeros trimmed at
the end of its fraction are made up for by the shorter fraction.
-/

namespace Calculator

namespace Number.Decimal

/-- Zeros on the left do not change what digits denote. -/
@[simp] theorem ofDigitChars_padZeros (width : ℕ) (digits : List Char) :
    Nat.ofDigitChars 10 (padZeros width digits) 0 = Nat.ofDigitChars 10 digits 0 := by
  rw [padZeros, Nat.ofDigitChars_append, Nat.ofDigitChars_replicate_zero, Nat.mul_zero]

/-- Zeros on the left are digits. -/
theorem isDigit_of_mem_padZeros (width : ℕ) {digits : List Char}
    (h : ∀ c ∈ digits, c.isDigit = true) : ∀ c ∈ padZeros width digits, c.isDigit = true := by
  intro c hc
  rcases List.mem_append.1 hc with hzero | hdigit
  · rw [List.eq_of_mem_replicate hzero]
    decide
  · exact h c hdigit

/-- What is trimmed off digits is zeros. -/
theorem exists_trimZeros_append (digits : List Char) :
    ∃ count, trimZeros digits ++ List.replicate count '0' = digits := by
  refine ⟨(digits.reverse.takeWhile (· == '0')).length, ?_⟩
  have hzeros : digits.reverse.takeWhile (· == '0') =
      List.replicate (digits.reverse.takeWhile (· == '0')).length '0' := by
    refine List.eq_replicate_iff.2 ⟨rfl, fun c hc => ?_⟩
    simpa using List.all_eq_true.1 List.all_takeWhile c hc
  have hsplit := congrArg List.reverse
    (List.takeWhile_append_dropWhile (p := (· == '0')) (l := digits.reverse))
  rw [hzeros, List.reverse_append, List.reverse_replicate, List.reverse_reverse] at hsplit
  simpa [trimZeros] using hsplit

/-- The digits of a decimal before the point. -/
def wholeDigits (number : Decimal) : List Char :=
  Nat.toDigits 10 (number.numerator / number.denominator)

/-- The digits of a decimal after the point, without zeros at the end. -/
def fractionDigits (number : Decimal) : List Char :=
  trimZeros (padZeros (-number.exponent).toNat
    (Nat.toDigits 10 (number.numerator % number.denominator)))

/-- The digits after the point are digits. -/
theorem isDigit_of_mem_fractionDigits {number : Decimal} :
    ∀ c ∈ number.fractionDigits, c.isDigit = true := by
  intro c hc
  obtain ⟨count, hsplit⟩ := exists_trimZeros_append (padZeros (-number.exponent).toNat
    (Nat.toDigits 10 (number.numerator % number.denominator)))
  have hdigits : ∀ c ∈ Nat.toDigits 10 (number.numerator % number.denominator),
      c.isDigit = true := fun _ => Nat.isDigit_of_mem_toDigits (by decide) (by decide)
  have hpadded := isDigit_of_mem_padZeros (-number.exponent).toNat hdigits c
  rw [← hsplit] at hpadded
  exact hpadded (List.mem_append_left _ hc)

/-- With the zeros that were trimmed the digits after the point fill all places, and they
denote what is left of the numerator. -/
theorem exists_fractionDigits (number : Decimal) :
    ∃ count, number.fractionDigits.length + count = (-number.exponent).toNat ∧
      Nat.ofDigitChars 10 number.fractionDigits 0 * 10 ^ count =
        number.numerator % number.denominator := by
  have hrest : number.numerator % number.denominator < 10 ^ (-number.exponent).toNat :=
    Nat.mod_lt _ number.denominator_pos
  rcases Nat.eq_zero_or_pos (-number.exponent).toNat with hplaces | hplaces
  · -- Without places the only digit is a zero, and it is trimmed.
    have hzero : number.numerator % number.denominator = 0 := by
      rw [hplaces] at hrest
      omega
    have hempty : number.fractionDigits = [] := by
      rw [fractionDigits, hplaces, hzero, Nat.toDigits_zero]
      decide
    exact ⟨0, by simp [hempty, hplaces], by simp [hempty, hzero]⟩
  · obtain ⟨count, hsplit⟩ := exists_trimZeros_append (padZeros (-number.exponent).toNat
      (Nat.toDigits 10 (number.numerator % number.denominator)))
    have hlength := congrArg List.length hsplit
    have hvalue := congrArg (Nat.ofDigitChars 10 · 0) hsplit
    have hfits := (Nat.length_toDigits_le_iff (by decide) hplaces).2 hrest
    rw [List.length_append, List.length_replicate, length_padZeros,
      Nat.max_eq_left hfits] at hlength
    simp only [Nat.ofDigitChars_append, Nat.ofDigitChars_replicate_zero, ofDigitChars_padZeros,
      Nat.ofDigitChars_ten_toDigits] at hvalue
    exact ⟨count, hlength, by rw [Nat.mul_comm]; exact hvalue⟩

/-- The numeral that writes a decimal positionally. -/
def numeral (number : Decimal) : Numeral where
  whole := number.wholeDigits
  fraction := if number.fractionDigits.isEmpty then none else some number.fractionDigits
  exponent := none

/-- A decimal is written positionally as its numeral. -/
theorem positional_eq_text (number : Decimal) : number.positional = number.numeral.text := by
  change (if number.fractionDigits.isEmpty then number.wholeDigits
    else number.wholeDigits ++ '.' :: number.fractionDigits) = _
  unfold numeral Numeral.text
  split <;> simp

/-- The digits after the point of a decimal's numeral. -/
theorem getD_fraction_numeral (number : Decimal) :
    number.numeral.fraction.getD [] = number.fractionDigits := by
  unfold numeral
  by_cases h : number.fractionDigits = [] <;> simp [h]

/-- The numeral of a decimal is complete. -/
theorem isComplete_numeral (number : Decimal) : number.numeral.IsComplete where
  whole := fun _ => Nat.isDigit_of_mem_toDigits (by decide) (by decide)
  fraction := number.getD_fraction_numeral ▸ isDigit_of_mem_fractionDigits
  nonempty := by simp [numeral, wholeDigits]
  exponent := by simp [numeral]

/-- A decimal is its whole part and what the digits after its point denote. -/
theorem toRat_eq_add (number : Decimal) :
    number.toRat = (number.numerator / number.denominator : ℕ) +
      Nat.ofDigitChars 10 number.fractionDigits 0 / (10 : ℚ) ^ number.fractionDigits.length := by
  obtain ⟨count, hlength, hrest⟩ := number.exists_fractionDigits
  have hdenominator : number.denominator = 10 ^ number.fractionDigits.length * 10 ^ count := by
    rw [denominator, ← hlength, Nat.pow_eq, Nat.pow_add]
  have hnumerator : (number.numerator : ℚ) =
      number.denominator * (number.numerator / number.denominator : ℕ) +
        Nat.ofDigitChars 10 number.fractionDigits 0 * 10 ^ count := by
    exact_mod_cast hrest ▸ (Nat.div_add_mod _ _).symm
  generalize number.numerator / number.denominator = whole at hnumerator ⊢
  rw [toRat_eq_div, hnumerator, hdenominator]
  push_cast
  field_simp

/-- The numeral of a decimal denotes it. -/
theorem toRat_value_numeral (number : Decimal) :
    number.numeral.value.toRat = number.toRat := by
  have hwhole : Nat.ofDigitChars 10 (number.wholeDigits ++ number.fractionDigits) 0 =
      10 ^ number.fractionDigits.length * (number.numerator / number.denominator) +
        Nat.ofDigitChars 10 number.fractionDigits 0 := by
    rw [Nat.ofDigitChars_append, wholeDigits, Nat.ofDigitChars_ten_toDigits,
      Nat.ofDigitChars_eq_ofDigitChars_zero]
  have hvalue : number.numeral.value =
      ⟨Nat.ofDigitChars 10 (number.wholeDigits ++ number.fractionDigits) 0,
        -number.fractionDigits.length⟩ := by
    simp only [Numeral.value, getD_fraction_numeral]
    simp [numeral]
  rw [number.toRat_eq_add, hvalue, hwhole, toRat]
  generalize number.numerator / number.denominator = whole
  push_cast
  rw [zpow_neg, zpow_natCast]
  field_simp

end Number.Decimal

/-- An exponent written after a numeral without one multiplies what it denotes. -/
theorem Numeral.toRat_value_of_exponent (whole : List Char) (fraction : Option (List Char))
    (exponent : Exponent) :
    (value ⟨whole, fraction, some exponent⟩).toRat =
      (value ⟨whole, fraction, none⟩).toRat * (10 : ℚ) ^ exponent.value := by
  have hten : (10 : ℚ) ≠ 0 := by norm_num
  simp only [value, Number.Decimal.toRat, Option.map_some, Option.map_none, Option.getD_some,
    Option.getD_none, sub_eq_add_neg, zero_add, zpow_add₀ hten]
  ring

namespace Number.GeneralNotation

/-- The exponent that writes a power of ten. -/
def exponent (style : GeneralNotation) (power : ℤ) : Exponent where
  letter := 'e'
  sign := some (if power < 0 then .minus else .plus)
  digits := Decimal.padZeros style.exponentWidth (Nat.toDigits 10 power.natAbs)

/-- A power of ten is written as its exponent. -/
theorem exponentSuffix_eq_text (style : GeneralNotation) (power : ℤ) :
    style.exponentSuffix power = (style.exponent power).text := by
  unfold exponentSuffix exponent Exponent.text
  split <;> rfl

/-- The exponent of a power of ten is complete. -/
theorem isComplete_exponent (style : GeneralNotation) (power : ℤ) :
    (style.exponent power).IsComplete where
  letter := .inl rfl
  nonempty := by simp [exponent, Decimal.padZeros]
  digits := Decimal.isDigit_of_mem_padZeros _
    fun _ => Nat.isDigit_of_mem_toDigits (by decide) (by decide)

/-- The exponent of a power of ten stands for it. -/
theorem value_exponent (style : GeneralNotation) (power : ℤ) :
    (style.exponent power).value = power := by
  unfold exponent Exponent.value
  simp only [Decimal.ofDigitChars_padZeros, Nat.ofDigitChars_ten_toDigits, Option.some.injEq]
  by_cases hnegative : power < 0
  · rw [if_pos hnegative, if_pos rfl]
    omega
  · rw [if_neg hnegative, if_neg (by decide)]
    omega

/-- A decimal times a power of ten, the power written as an exponent, is written as a complete
numeral that denotes the product. -/
theorem exists_numeral_of_exponent (style : GeneralNotation) (number : Decimal) (power : ℤ) :
    ∃ numeral : Numeral, numeral.IsComplete ∧
      number.positional ++ style.exponentSuffix power = numeral.text ∧
      numeral.value.toRat = number.toRat * (10 : ℚ) ^ power := by
  have hcomplete := number.isComplete_numeral
  refine ⟨{ number.numeral with exponent := some (style.exponent power) }, ?_, ?_, ?_⟩
  · exact ⟨hcomplete.whole, hcomplete.fraction, hcomplete.nonempty, by
      simp [style.isComplete_exponent power]⟩
  · rw [number.positional_eq_text, style.exponentSuffix_eq_text]
    simp [Numeral.text, Decimal.numeral]
  · rw [Numeral.toRat_value_of_exponent, style.value_exponent, ← number.toRat_value_numeral]
    rfl

end Number.GeneralNotation

end Calculator
