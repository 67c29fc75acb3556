import Calculator.Proofs.Proper
import Calculator.Proofs.TiesToEven
import Calculator.Proofs.Tokenizing

/-!
# Numbers in a text are read exactly

A numeral denotes a rational number, whatever digits and whatever exponent it has. Where the
longest number of a text is a numeral, the numeral is the longest token there, too. It is read as
the finite number that its rational number is rounded to, or refused as it is written if this is
past the finite range; and it is never taken for a character with which no token starts.
-/

namespace Calculator

open Number

/-- The rational number that a numeral denotes: the digits before its point and those after it,
times its power of ten. -/
def Numeral.toRat (numeral : Numeral) : ℚ :=
  (Nat.ofDigitChars 10 numeral.whole 0 +
    Nat.ofDigitChars 10 (numeral.fraction.getD []) 0 /
      (10 : ℚ) ^ (numeral.fraction.getD []).length) *
    (10 : ℚ) ^ (numeral.exponent.map Exponent.value).getD 0

/-- A numeral is read as the decimal that it denotes. -/
theorem Numeral.toRat_value (numeral : Numeral) : numeral.value.toRat = numeral.toRat := by
  have hten : (10 : ℚ) ≠ 0 := by norm_num
  rw [value, Decimal.toRat, toRat]
  generalize numeral.fraction.getD [] = fraction
  dsimp only
  rw [Nat.ofDigitChars_append, Nat.ofDigitChars_eq_ofDigitChars_zero, zpow_sub₀ hten,
    zpow_natCast]
  push_cast
  field_simp

/-- A numeral does not denote a negative number. -/
theorem Numeral.toRat_nonneg (numeral : Numeral) : 0 ≤ numeral.toRat := by
  unfold toRat
  positivity

/-- A complete numeral is the only one with its characters. -/
theorem Numeral.IsComplete.eq_of_text_eq {numeral other : Numeral} (h : numeral.IsComplete)
    (hother : other.IsComplete) (htext : numeral.text = other.text) : numeral = other := by
  have hlexeme : (Lexeme.numeral numeral).IsComplete := h
  have hlexeme' : (Lexeme.numeral other).IsComplete := hother
  cases Lexeme.eq_of_text_eq hlexeme hlexeme' htext
  rfl

/-- A number is a token. -/
theorem Lexical.mem_token_of_mem_number {word : List Char} (h : word ∈ number) : word ∈ token :=
  .inl (.inl h)

/-- A numeral that is scanned is the longest token at the start of the text. -/
theorem Numeral.isLongest_token_of_scan? {cs rest : List Char} {numeral : Numeral}
    (h : scan? cs = some (numeral, rest)) :
    Lexical.IsLongest Lexical.token cs numeral.text := by
  have hlexeme : Lexeme.scan? cs = some (.numeral numeral, rest) := by rw [Lexeme.scan?, h]
  exact Lexeme.isLongest_of_scan? hlexeme

/-- A numeral that is scanned is the longest number at the start of the text. -/
theorem Numeral.isLongest_number_of_scan? {cs rest : List Char} {numeral : Numeral}
    (h : scan? cs = some (numeral, rest)) :
    Lexical.IsLongest Lexical.number cs numeral.text where
  mem := Lexical.mem_number.2 ⟨numeral, isComplete_of_scan? h, rfl⟩
  starts := (isLongest_token_of_scan? h).starts
  longest other hother :=
    (isLongest_token_of_scan? h).longest other (Lexical.mem_token_of_mem_number hother)

/-- The longest number at the start of a text is the longest token there, since no other token
starts as a number does. -/
theorem Lexical.IsLongest.token_of_number {text word : List Char}
    (h : IsLongest number text word) : IsLongest token text word := by
  obtain ⟨numeral, hcomplete, rfl⟩ := mem_number.1 h.mem
  obtain ⟨rest, hrest⟩ := h.starts
  obtain ⟨found, after, hscan, _⟩ := Numeral.exists_scan?_text_append hcomplete rest
  rw [hrest] at hscan
  rw [h.eq (Numeral.isLongest_number_of_scan? hscan)]
  exact Numeral.isLongest_token_of_scan? hscan

namespace Cursor

/-- No number starts where a character is reported with which no token starts. -/
theorem not_isPrefix_of_unexpectedCharacter {cursor after : Cursor} {found : Char} {place : ℕ}
    (h : cursor.next = (some (.error (.unexpectedCharacter found place)), after)) :
    ∀ word ∈ Lexical.number, ¬ word <+: cursor.skipBlank.rest := by
  intro word hword
  unfold next read at h
  split at h
  · cases h
  · split at h
    · rename_i hscan
      exact Lexeme.scan?_eq_none_iff.1 hscan word (Lexical.mem_token_of_mem_number hword)
    · split at h <;> cases h

/-- A number is read exactly. Where the longest word of the language of numbers is found in a
text, it is a numeral that denotes a rational number. If this is `2 ^ 1024 - 2 ^ 970` or greater,
then the number is refused, as it is written and where it starts. Otherwise the next token is the
finite number, without a minus sign, that the rational number is rounded to, ties going to even
numbers; and this is zero exactly if the rational number is no more than half of the least positive
number. No number is ever found where a character is reported with which no token starts, and every
number token is finite and without a minus sign. -/
theorem next_number {gap word rest : List Char} (hgap : ∀ c ∈ gap, Text.isBlank c = true)
    (hlongest : Lexical.IsLongest Lexical.number (word ++ rest) word) (position : ℕ) :
    (∃ numeral : Numeral,
      (∀ other : Numeral, other.IsComplete ∧ other.text = word ↔ other = numeral) ∧
      ((2 : ℚ) ^ 1024 - 2 ^ 970 ≤ numeral.toRat →
        next ⟨gap ++ (word ++ rest), position⟩ =
          (some (.error (.numberOutOfRange word (position + Text.byteLength gap))),
            ⟨[], position + Text.byteLength gap⟩)) ∧
      (numeral.toRat < (2 : ℚ) ^ 1024 - 2 ^ 970 → ∃ value,
        Binary64.IsNearestEven numeral.toRat value ∧
        (Binary64.ofFloat value).isNegative = false ∧
        (∀ other, Binary64.IsNearestEven numeral.toRat other →
          (Binary64.ofFloat other).isNegative = false → other = value) ∧
        (value = 0.0 ↔ numeral.toRat ≤ 1 / (2 * (Binary64.one : ℚ))) ∧
        next ⟨gap ++ (word ++ rest), position⟩ =
          (some (.ok ⟨.number value, position + Text.byteLength gap⟩),
            ⟨rest, position + Text.byteLength (gap ++ word)⟩))) ∧
    (∀ cursor found place after,
      next cursor = (some (.error (.unexpectedCharacter found place)), after) →
        ∀ number ∈ Lexical.number, ¬ number <+: cursor.skipBlank.rest) ∧
    ∀ cursor value place after, next cursor = (some (.ok ⟨.number value, place⟩), after) →
      ∃ units, Binary64.ofFloat value = .finite false units := by
  refine ⟨?_, fun _ _ _ _ => not_isPrefix_of_unexpectedCharacter,
    fun _ _ _ _ h => Token.exists_finite_of_isProper (isProper_of_next h)⟩
  obtain ⟨numeral, hcomplete, rfl⟩ := Lexical.mem_number.1 hlongest.mem
  have htoken := hlongest.token_of_number
  refine ⟨numeral, fun other => ⟨?_, ?_⟩, ?_, ?_⟩
  · intro ⟨hother, htext⟩
    exact hother.eq_of_text_eq hcomplete htext
  · rintro rfl
    exact ⟨hcomplete, rfl⟩
  · intro hout
    rw [← Binary64.cast_finiteRange, ← numeral.toRat_value] at hout
    exact next_of_numberOutOfRange hgap hcomplete htoken hout position
  · intro hin
    have hnonneg := numeral.toRat_nonneg
    rw [← numeral.toRat_value] at hin hnonneg ⊢
    rw [← Binary64.cast_finiteRange] at hin
    obtain ⟨value, hvalue⟩ := Decimal.toFloat?_isSome hin
    have hnearest := Decimal.isNearestEven_of_toFloat? hvalue
    have hplain : (Binary64.ofFloat value).isNegative = false := by
      rw [Decimal.ofFloat_nearestPattern hvalue]
      rfl
    refine ⟨value, hnearest, hplain, ?_, Decimal.eq_zero_iff_of_toFloat? hvalue,
      next_of_isLongest hgap htoken (.number hcomplete hvalue) position⟩
    intro other hother hsign
    exact hother.unique hnonneg hnearest hsign hplain

/-- A power of ten past the finite range is refused as it is written, and one that is less than
half of the least positive number is zero. -/
theorem next_number_powers :
    next ⟨" 1e400".toList, 0⟩ =
        (some (.error (.numberOutOfRange "1e400".toList 1)), ⟨[], 1⟩) ∧
      next ⟨"1e-400)".toList, 0⟩ = (some (.ok ⟨.number 0.0, 0⟩), ⟨[')'], 6⟩) := by
  have hpower (exponent : Exponent) :
      Numeral.toRat ⟨['1'], none, some exponent⟩ = (10 : ℚ) ^ exponent.value := by
    simp [Numeral.toRat, Nat.ofDigitChars]
  constructor
  · let large : Numeral := ⟨['1'], none, some ⟨'e', none, ['4', '0', '0']⟩⟩
    have hscan : Numeral.scan? (large.text ++ []) = some (large, []) := rfl
    have hgap : ∀ c ∈ [' '], Text.isBlank c = true := List.all_eq_true.1 (by decide)
    obtain ⟨⟨numeral, hnumeral, hout, _⟩, _⟩ :=
      next_number hgap (Numeral.isLongest_number_of_scan? hscan) 0
    obtain rfl := (hnumeral large).1 ⟨by decide, rfl⟩
    apply hout
    rw [← Binary64.cast_finiteRange, hpower]
    exact Decimal.finiteRange_lt_pow.le.trans (zpow_le_zpow_right₀ (by norm_num) (by decide))
  · let small : Numeral := ⟨['1'], none, some ⟨'e', some .minus, ['4', '0', '0']⟩⟩
    have hscan : Numeral.scan? (small.text ++ [')']) = some (small, [')']) := rfl
    have hgap : ∀ c ∈ ([] : List Char), Text.isBlank c = true := by simp
    obtain ⟨⟨numeral, hnumeral, _, hin⟩, _⟩ :=
      next_number hgap (Numeral.isLongest_number_of_scan? hscan) 0
    obtain rfl := (hnumeral small).1 ⟨by decide, rfl⟩
    have hzero : small.value.toFloat? = some 0.0 := if_pos (by decide)
    have hhalf := (Decimal.eq_zero_iff_of_toFloat? hzero).1 rfl
    have hrange : small.toRat < (2 : ℚ) ^ 1024 - 2 ^ 970 := by
      rw [← Binary64.cast_finiteRange, ← small.toRat_value]
      by_contra hout
      rw [Decimal.toFloat?_eq_none_iff.2 (not_lt.1 hout)] at hzero
      cases hzero
    rw [small.toRat_value] at hhalf
    obtain ⟨value, _, _, _, hvalue, hnext⟩ := hin hrange
    rw [hvalue.2 hhalf] at hnext
    exact hnext

end Cursor

end Calculator
