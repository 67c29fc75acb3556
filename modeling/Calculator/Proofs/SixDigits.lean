import Calculator.Proofs.Literals

/-!
# Six significant digits

The text of a finite number that is not zero is fixed by its value alone. The value is rounded to
six significant digits, a tie going to the even multiple of the last place and a carry moving the
leading digit. The digits and the place of the leading one are then written in the one way that
general notation allows: positionally or with an exponent of at least two digits, in both cases
without zeros at the end of the fraction.

The notation is described here without the functions that write it: positional notation by the
number that the digits denote, and rounding by the distance to the multiples of a place. Both
descriptions leave just one choice, so what is written is all that could be.
-/

namespace Calculator.Number

namespace Decimal

/-- The first of some digits stands for its multiple of a power of ten. -/
theorem ofDigitChars_cons_eq (c : Char) (digits : List Char) :
    Nat.ofDigitChars 10 (c :: digits) 0 =
      10 ^ digits.length * (c.toNat - 48) + Nat.ofDigitChars 10 digits 0 := by
  rw [Nat.ofDigitChars_cons, Nat.ofDigitChars_eq_ofDigitChars_zero, Nat.mul_zero, Nat.zero_add]
  rfl

/-- Digits denote less than the power of ten that has one digit more. -/
theorem ofDigitChars_lt {digits : List Char} (h : ∀ c ∈ digits, c.isDigit = true) :
    Nat.ofDigitChars 10 digits 0 < 10 ^ digits.length := by
  induction digits with
  | nil => simp
  | cons c digits ih =>
    have hdigit := toNat_of_isDigit (h c (by simp))
    have hothers := ih fun c hc => h c (by simp [hc])
    have hfirst := Nat.mul_le_mul_left (10 ^ digits.length) (by omega : c.toNat - 48 ≤ 9)
    rw [ofDigitChars_cons_eq, List.length_cons, Nat.pow_succ]
    omega

/-- As many digits that denote the same number are the same digits. -/
theorem eq_of_ofDigitChars_eq {digits digits' : List Char}
    (h : ∀ c ∈ digits, c.isDigit = true) (h' : ∀ c ∈ digits', c.isDigit = true)
    (hlength : digits.length = digits'.length)
    (hvalue : Nat.ofDigitChars 10 digits 0 = Nat.ofDigitChars 10 digits' 0) :
    digits = digits' := by
  induction digits generalizing digits' with
  | nil => exact (List.length_eq_zero_iff.1 hlength.symm).symm
  | cons c digits ih =>
    obtain ⟨c', digits', rfl⟩ := List.exists_cons_of_length_eq_add_one hlength.symm
    have hothers : ∀ c ∈ digits, c.isDigit = true := fun c hc => h c (by simp [hc])
    have hothers' : ∀ c ∈ digits', c.isDigit = true := fun c hc => h' c (by simp [hc])
    have hlength' : digits.length = digits'.length := Nat.succ.inj hlength
    have hdigit := toNat_of_isDigit (h c (by simp))
    have hdigit' := toNat_of_isDigit (h' c' (by simp))
    rw [ofDigitChars_cons_eq, ofDigitChars_cons_eq, hlength'] at hvalue
    -- The first digit is the quotient by the power of ten, the others are the remainder.
    have hlt := hlength' ▸ ofDigitChars_lt hothers
    have hlt' := ofDigitChars_lt hothers'
    have hpos : 0 < 10 ^ digits'.length := Nat.pow_pos (by decide)
    have hfirst := congrArg (· / 10 ^ digits'.length) hvalue
    have hrest := congrArg (· % 10 ^ digits'.length) hvalue
    simp only [Nat.mul_add_div hpos, Nat.div_eq_of_lt hlt, Nat.div_eq_of_lt hlt',
      Nat.mul_add_mod, Nat.mod_eq_of_lt hlt, Nat.mod_eq_of_lt hlt'] at hfirst hrest
    have hchar : c = c' := Char.toNat_inj.1 (by omega)
    rw [hchar, ih hothers hothers' hlength' hrest]

/-- Nothing is trimmed off digits that do not end in a zero. -/
theorem trimZeros_eq_self {digits : List Char} (h : digits.getLast? ≠ some '0') :
    trimZeros digits = digits := by
  obtain ⟨count, hsplit⟩ := exists_trimZeros_append digits
  cases count with
  | zero => simpa using hsplit
  | succ count =>
    rw [List.replicate_succ', ← List.append_assoc] at hsplit
    rw [← hsplit, List.getLast?_concat] at h
    exact absurd rfl h

/-- Digits after a point that do not end in a zero are fixed by the number they denote. -/
theorem eq_of_fraction_eq {fraction fraction' : List Char}
    (h : ∀ c ∈ fraction, c.isDigit = true) (h' : ∀ c ∈ fraction', c.isDigit = true)
    (hend : fraction.getLast? ≠ some '0') (hend' : fraction'.getLast? ≠ some '0')
    (hvalue : Nat.ofDigitChars 10 fraction 0 * 10 ^ fraction'.length =
      Nat.ofDigitChars 10 fraction' 0 * 10 ^ fraction.length) : fraction = fraction' := by
  -- Filled up with zeros to a common length they are the same digits.
  have hzeros (digits : List Char) (hdigits : ∀ c ∈ digits, c.isDigit = true) (count : ℕ) :
      ∀ c ∈ digits ++ List.replicate count '0', c.isDigit = true := by
    intro c hc
    rcases List.mem_append.1 hc with hdigit | hzero
    · exact hdigits c hdigit
    · rw [List.eq_of_mem_replicate hzero]
      decide
  have hfilled : fraction ++ List.replicate fraction'.length '0' =
      fraction' ++ List.replicate fraction.length '0' := by
    apply eq_of_ofDigitChars_eq (hzeros fraction h _) (hzeros fraction' h' _)
    · simp [Nat.add_comm]
    · rw [Nat.ofDigitChars_append, Nat.ofDigitChars_append, Nat.ofDigitChars_replicate_zero,
        Nat.ofDigitChars_replicate_zero, Nat.mul_comm, hvalue, Nat.mul_comm]
  have htrimmed := congrArg trimZeros hfilled
  rwa [trimZeros_append_replicate, trimZeros_append_replicate, trimZeros_eq_self hend,
    trimZeros_eq_self hend'] at htrimmed

end Decimal

/-- A text is the positional notation of a number: the digits of its whole part and, if it has a
fraction, a point and the digits of the fraction up to the last that is not zero. -/
def IsPositional (text : List Char) (number : ℚ) : Prop :=
  ∃ (whole : ℕ) (fraction : List Char),
    text = Nat.toDigits 10 whole ++ (if fraction = [] then [] else '.' :: fraction) ∧
    (∀ c ∈ fraction, c.isDigit = true) ∧ fraction.getLast? ≠ some '0' ∧
    number = whole + Nat.ofDigitChars 10 fraction 0 / (10 : ℚ) ^ fraction.length

/-- The digits of a fraction denote less than one. -/
theorem fraction_bounds {fraction : List Char} (h : ∀ c ∈ fraction, c.isDigit = true) :
    0 ≤ (Nat.ofDigitChars 10 fraction 0 : ℚ) / (10 : ℚ) ^ fraction.length ∧
      (Nat.ofDigitChars 10 fraction 0 : ℚ) / (10 : ℚ) ^ fraction.length < 1 := by
  have hpow : (0 : ℚ) < (10 : ℚ) ^ fraction.length := pow_pos (by norm_num) _
  have hlt : (Nat.ofDigitChars 10 fraction 0 : ℚ) < (10 : ℚ) ^ fraction.length := by
    exact_mod_cast Decimal.ofDigitChars_lt h
  exact ⟨div_nonneg (Nat.cast_nonneg _) hpow.le, (div_lt_iff₀ hpow).2 (by rwa [one_mul])⟩

/-- A number has no more than one positional notation. -/
theorem IsPositional.unique {text text' : List Char} {number : ℚ} (h : IsPositional text number)
    (h' : IsPositional text' number) : text = text' := by
  obtain ⟨whole, fraction, rfl, hdigits, hend, hvalue⟩ := h
  obtain ⟨whole', fraction', rfl, hdigits', hend', hvalue'⟩ := h'
  have hbounds := fraction_bounds hdigits
  have hbounds' := fraction_bounds hdigits'
  have hwhole : whole = whole' := by
    have hle : (whole : ℚ) < whole' + 1 := by linarith
    have hge : (whole' : ℚ) < whole + 1 := by linarith
    exact Nat.le_antisymm (Nat.le_of_lt_succ (by exact_mod_cast hle))
      (Nat.le_of_lt_succ (by exact_mod_cast hge))
  have hfraction : fraction = fraction' := by
    have hpow (digits : List Char) : (10 : ℚ) ^ digits.length ≠ 0 := pow_ne_zero _ (by norm_num)
    have hquotients := hvalue.symm.trans hvalue'
    rw [hwhole, add_right_inj, div_eq_div_iff (hpow fraction) (hpow fraction')] at hquotients
    exact Decimal.eq_of_fraction_eq hdigits hdigits' hend hend' (by exact_mod_cast hquotients)
  rw [hwhole, hfraction]

/-- A decimal is written in positional notation. -/
theorem Decimal.isPositional_positional (number : Decimal) :
    IsPositional number.positional number.toRat := by
  refine ⟨number.numerator / number.denominator, number.fractionDigits, ?_,
    isDigit_of_mem_fractionDigits, getLast?_trimZeros_ne _, number.toRat_eq_add⟩
  change (if number.fractionDigits.isEmpty then number.wholeDigits
    else number.wholeDigits ++ '.' :: number.fractionDigits) = _
  by_cases hempty : number.fractionDigits = [] <;> simp [hempty, wholeDigits]

/-- A text is the general notation of a number with six significant digits: positional notation
while the leading digit stands between the fourth place after the point and the sixth before it,
and otherwise the digits with a point after the first, an `e`, the sign of the exponent and at
least two digits of the exponent. -/
def IsGeneral (digits : ℕ) (leading : ℤ) (text : List Char) : Prop :=
  if -4 ≤ leading ∧ leading < 6 then IsPositional text (digits * (10 : ℚ) ^ (leading - 5))
  else ∃ mantissa, IsPositional mantissa (digits * (10 : ℚ) ^ (-5 : ℤ)) ∧
    text = mantissa ++ 'e' :: (if leading < 0 then '-' else '+') ::
      ((if leading.natAbs < 10 then ['0'] else []) ++ Nat.toDigits 10 leading.natAbs)

/-- A number has no more than one general notation. -/
theorem IsGeneral.unique {digits : ℕ} {leading : ℤ} {text text' : List Char}
    (h : IsGeneral digits leading text) (h' : IsGeneral digits leading text') : text = text' := by
  unfold IsGeneral at h h'
  split at h
  · rename_i hplain
    rw [if_pos hplain] at h'
    exact h.unique h'
  · rename_i hplain
    rw [if_neg hplain] at h'
    obtain ⟨mantissa, hmantissa, rfl⟩ := h
    obtain ⟨mantissa', hmantissa', rfl⟩ := h'
    rw [hmantissa.unique hmantissa']

/-- An exponent with one digit gets a zero in front of it. -/
theorem padZeros_two_toDigits (exponent : ℕ) :
    Decimal.padZeros 2 (Nat.toDigits 10 exponent) =
      (if exponent < 10 then ['0'] else []) ++ Nat.toDigits 10 exponent := by
  have hpos : 0 < (Nat.toDigits 10 exponent).length := Nat.length_toDigits_pos
  have hshort : (Nat.toDigits 10 exponent).length ≤ 1 ↔ exponent < 10 ^ 1 :=
    Nat.length_toDigits_le_iff (by decide) (by decide)
  unfold Decimal.padZeros
  congr 1
  split
  · rename_i hsmall
    have hlength := hshort.2 hsmall
    rw [(by omega : 2 - (Nat.toDigits 10 exponent).length = 1)]
    rfl
  · rename_i hlarge
    have hlength := mt hshort.1 hlarge
    rw [(by omega : 2 - (Nat.toDigits 10 exponent).length = 0)]
    rfl

/-- A decimal whose last digit is the sixth is written in general notation. -/
theorem isGeneral_written (digits : ℕ) (leading : ℤ) :
    IsGeneral digits leading (literalNotation.written ⟨digits, leading - 5⟩) := by
  have hleading : leading - 5 + (literalNotation.further : ℤ) = leading := sub_add_cancel _ _
  unfold IsGeneral GeneralNotation.written
  dsimp only
  rw [hleading]
  by_cases hplain : -4 ≤ leading ∧ leading < 6
  · have hstyle : ¬ (leading < literalNotation.leastPositional ∨
        (literalNotation.further : ℤ) < leading) := by
      change ¬ (leading < -4 ∨ (5 : ℤ) < leading)
      omega
    rw [if_pos hplain, if_neg hstyle]
    exact Decimal.isPositional_positional _
  · have hstyle : leading < literalNotation.leastPositional ∨
        (literalNotation.further : ℤ) < leading := by
      change leading < -4 ∨ (5 : ℤ) < leading
      omega
    rw [if_neg hplain, if_pos hstyle]
    refine ⟨_, Decimal.isPositional_positional ⟨digits, -5⟩, ?_⟩
    rw [← padZeros_two_toDigits]
    rfl

/-- The digits and the place of the leading one are a positive number rounded to one significant
digit more than `count`: they denote the nearest multiple of the place where the last of these
digits of the number itself stands, the even one of two that are equally near. -/
structure IsRounded (count : ℕ) (number : ℚ) (digits : ℕ) (leading : ℤ) : Prop where
  enough : 10 ^ count ≤ digits
  fits : digits < 10 ^ (count + 1)
  nearest : ∃ (multiple : ℕ) (exponent : ℤ),
    (10 : ℚ) ^ exponent ≤ number ∧ number < (10 : ℚ) ^ (exponent + 1) ∧
    |multiple * (10 : ℚ) ^ (exponent - count) - number| ≤ 1 / 2 * (10 : ℚ) ^ (exponent - count) ∧
    (|multiple * (10 : ℚ) ^ (exponent - count) - number| = 1 / 2 * (10 : ℚ) ^ (exponent - count) →
      multiple % 2 = 0) ∧
    multiple * (10 : ℚ) ^ (exponent - count) = digits * (10 : ℚ) ^ (leading - count)

section IsRounded

variable {count n d digits : ℕ} {leading : ℤ}

/-- As many digits denote numbers between the power of ten of the leading one and the next. -/
theorem pow_le_mul_pow (leading : ℤ) (henough : 10 ^ count ≤ digits)
    (hfits : digits < 10 ^ (count + 1)) :
    (10 : ℚ) ^ leading ≤ digits * (10 : ℚ) ^ (leading - count) ∧
      digits * (10 : ℚ) ^ (leading - count) < (10 : ℚ) ^ (leading + 1) := by
  have hpow : (0 : ℚ) < (10 : ℚ) ^ (leading - count) := zpow_pos (by norm_num) _
  have henough' : (10 : ℚ) ^ count ≤ digits := by exact_mod_cast henough
  have hfits' : (digits : ℚ) < (10 : ℚ) ^ (count + 1) := by exact_mod_cast hfits
  rw [zpow_add_one₀ (by norm_num), pow_leading count, mul_right_comm, ← pow_succ]
  exact ⟨mul_le_mul_of_nonneg_right henough' hpow.le, mul_lt_mul_of_pos_right hfits' hpow⟩

/-- A number is denoted by as many digits, counted from the leading one, in one way only. -/
theorem eq_of_mul_pow_eq {digits' : ℕ} {leading' : ℤ} (henough : 10 ^ count ≤ digits)
    (hfits : digits < 10 ^ (count + 1)) (henough' : 10 ^ count ≤ digits')
    (hfits' : digits' < 10 ^ (count + 1))
    (h : digits * (10 : ℚ) ^ (leading - count) = digits' * (10 : ℚ) ^ (leading' - count)) :
    digits = digits' ∧ leading = leading' := by
  have hten : (1 : ℚ) < 10 := by norm_num
  obtain ⟨hlow, hhigh⟩ := pow_le_mul_pow leading henough hfits
  obtain ⟨hlow', hhigh'⟩ := pow_le_mul_pow leading' henough' hfits'
  have habove := (zpow_lt_zpow_iff_right₀ hten).1 (hlow.trans_lt (h ▸ hhigh'))
  have hbelow := (zpow_lt_zpow_iff_right₀ hten).1 (hlow'.trans_lt (h ▸ hhigh))
  obtain rfl : leading = leading' := by omega
  have hpow : (10 : ℚ) ^ (leading - count) ≠ 0 := zpow_ne_zero _ (by norm_num)
  exact ⟨by exact_mod_cast mul_right_cancel₀ hpow h, rfl⟩

/-- Significant digits have the count asked for, also after a carry. -/
theorem coefficient_roundSignificant_bounds (count : ℕ) (hn : 0 < n) (hd : 0 < d) :
    10 ^ count ≤ (roundSignificant count n d).coefficient ∧
      (roundSignificant count n d).coefficient < 10 ^ (count + 1) := by
  obtain ⟨hfew, hmany⟩ := coefficient_roundTo_bounds count hn hd
  unfold roundSignificant
  dsimp only
  split
  · exact ⟨Nat.le_refl _, Nat.pow_lt_pow_succ (by decide)⟩
  · rename_i hfits
    exact ⟨hfew, Nat.lt_of_le_of_ne hmany hfits⟩

/-- A positive quotient is rounded to significant digits as rounding asks for, and to no
others. -/
theorem isRounded_iff (hn : 0 < n) (hd : 0 < d) :
    IsRounded count ((n : ℚ) / d) digits leading ↔
      roundSignificant count n d = ⟨digits, leading - count⟩ := by
  obtain ⟨henough, hfits⟩ := coefficient_roundSignificant_bounds count hn hd
  have hsignificant := toRat_roundSignificant count n d
  constructor
  · intro h
    obtain ⟨multiple, exponent, hlow, hhigh, hnear, heven, hvalue⟩ := h.nearest
    rw [leadingExponent_eq hd hlow hhigh, roundTo_eq hd hnear heven] at hsignificant
    generalize roundSignificant count n d = rounded at henough hfits hsignificant
    obtain ⟨coefficient, place⟩ := rounded
    obtain ⟨leading', rfl⟩ : ∃ leading' : ℤ, place = leading' - count :=
      ⟨place + count, (add_sub_cancel_right _ _).symm⟩
    obtain ⟨rfl, rfl⟩ := eq_of_mul_pow_eq henough hfits h.enough h.fits
      (hsignificant.trans hvalue)
    rfl
  · intro h
    obtain ⟨hlow, hhigh⟩ := pow_leadingExponent_bounds hn hd
    rw [h] at henough hfits hsignificant
    exact ⟨henough, hfits, (roundTo n d (leadingExponent n d - count)).coefficient,
      leadingExponent n d, hlow, hhigh, abs_toRat_roundTo_sub_le n hd _,
      even_of_abs_toRat_roundTo_sub hd, hsignificant.symm⟩

end IsRounded

end Calculator.Number

namespace Calculator

open Number

/-- A finite number that is not zero is written in general notation with six significant digits.
The number without its sign is rounded to six digits in exactly one way. The text is a minus sign,
if the number has one, and the general notation of these digits, of which there is just one. The
rounding that finds the place of the leading digit and the one that finds the digits after the
point have the same result. -/
theorem numberText_eq_iff_isGeneral {x : Float} {negative : Bool} {units : ℕ}
    (h : Binary64.ofFloat x = .finite negative units) (hunits : units ≠ 0) :
    (∃ digits leading, IsRounded 5 ((units : ℚ) / Binary64.one) digits leading) ∧
    ∀ digits leading, IsRounded 5 ((units : ℚ) / Binary64.one) digits leading →
      (∀ digits' leading', IsRounded 5 ((units : ℚ) / Binary64.one) digits' leading' →
        digits' = digits ∧ leading' = leading) ∧
      (∀ body, numberText x = String.ofList (if negative then '-' :: body else body) ↔
        IsGeneral digits leading body) ∧
      roundSignificant 5 units Binary64.one = ⟨digits, leading - 5⟩ ∧
      roundTo units Binary64.one (leading - 5) = ⟨digits, leading - 5⟩ := by
  have hpos := Nat.pos_of_ne_zero hunits
  have hrounded {digits : ℕ} {leading : ℤ} :
      IsRounded 5 ((units : ℚ) / Binary64.one) digits leading ↔
        roundSignificant 5 units Binary64.one = ⟨digits, leading - 5⟩ :=
    isRounded_iff hpos Binary64.one_pos
  refine ⟨⟨(roundSignificant 5 units Binary64.one).coefficient,
    (roundSignificant 5 units Binary64.one).exponent + 5, hrounded.2 ?_⟩, ?_⟩
  · rw [add_sub_cancel_right]
  intro digits leading hdigits
  have hsignificant := hrounded.1 hdigits
  have htext : literalNotation.text x =
      if negative then '-' :: literalNotation.written ⟨digits, leading - 5⟩
      else literalNotation.written ⟨digits, leading - 5⟩ := by
    have hmagnitude : literalNotation.magnitude units Binary64.one =
        literalNotation.written (roundSignificant 5 units Binary64.one) :=
      literalNotation.magnitude_eq_written hpos Binary64.one_pos
    rw [GeneralNotation.text, h]
    dsimp only
    rw [if_neg hunits, hmagnitude, hsignificant]
  have hgeneral := isGeneral_written digits leading
  refine ⟨fun digits' leading' hother => ?_, fun body => ⟨fun hbody => ?_, fun hbody => ?_⟩,
    hsignificant, ?_⟩
  · obtain ⟨rfl, hplace⟩ := Decimal.mk.inj ((hrounded.1 hother).symm.trans hsignificant)
    exact ⟨rfl, sub_left_inj.1 hplace⟩
  · rw [numberText, String.ofList_inj, htext] at hbody
    have hwritten : literalNotation.written ⟨digits, leading - 5⟩ = body := by
      cases negative with
      | true => exact (List.cons.inj hbody).2
      | false => exact hbody
    exact hwritten ▸ hgeneral
  · rw [numberText, htext, hbody.unique hgeneral]
  · have hagain := roundTo_roundSignificant 5 hpos Binary64.one_pos
    rwa [hsignificant] at hagain

/-- Half below a million, a number is rounded up to it and written with an exponent. -/
theorem numberText_eq_iff_isGeneral_carry :
    Binary64.ofFloat (Float.ofBits 0x412E847F00000000) = .finite false (1999999 * Nat.pow 2 1073) ∧
      1999999 * Nat.pow 2 1073 ≠ 0 ∧
      IsRounded 5 (((1999999 * Nat.pow 2 1073 : ℕ) : ℚ) / Binary64.one) 100000 6 ∧
      numberText (Float.ofBits 0x412E847F00000000) = "1e+06" := by
  have hunits : Binary64.ofFloat (Float.ofBits 0x412E847F00000000) =
      .finite false (1999999 * Nat.pow 2 1073) := by decide +kernel
  have hzero : 1999999 * Nat.pow 2 1073 ≠ 0 := by decide +kernel
  have hvalue : ((1999999 * Nat.pow 2 1073 : ℕ) : ℚ) / Binary64.one = 1999999 / 2 := by
    have hdouble : 1999999 * Nat.pow 2 1073 * 2 = 1999999 * Binary64.one := by decide +kernel
    rw [div_eq_div_iff (Nat.cast_ne_zero.2 Binary64.one_pos.ne') (by norm_num)]
    generalize 1999999 * Nat.pow 2 1073 = units at hdouble ⊢
    exact_mod_cast hdouble
  have hrounded : IsRounded 5 (((1999999 * Nat.pow 2 1073 : ℕ) : ℚ) / Binary64.one) 100000 6 := by
    rw [hvalue]
    refine ⟨by decide, by decide, 1000000, 5, ?_, ?_, ?_, fun _ => by decide, ?_⟩
    · norm_num
    · norm_num
    · norm_num [abs_le]
    · norm_num
  have hgeneral : IsGeneral 100000 6 "1e+06".toList := by
    refine (if_neg (by decide)).mpr ⟨['1'], ⟨1, [], rfl, by simp, by simp, by norm_num⟩, ?_⟩
    decide
  have htext := ((numberText_eq_iff_isGeneral hunits hzero).2 _ _ hrounded).2.1 "1e+06".toList
  exact ⟨hunits, hzero, hrounded, htext.2 hgeneral⟩

end Calculator
