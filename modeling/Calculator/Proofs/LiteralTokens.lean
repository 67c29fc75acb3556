import Calculator.Proofs.Stability

/-!
# Numbers as tokens

The text of a finite number is a single number token, with a minus sign in front of it if the
number has one. What the token denotes is zero only if the number is, since six digits are enough
to tell every number from zero. And it is written as the same text again, up to the one exception
among the subnormal numbers, where six digits tell more than the numbers there are.
-/

namespace Calculator

open Number

/-- The text of a finite number without a minus sign is a single number token, which denotes zero
only if the number is zero. The denoted number has the same text unless the number is
`202403 * 2 ^ -1074`, whose text `1e-318` denotes the number below it. A finite number with a minus
sign has this sign in front of the text of its negation. -/
theorem tokenize_numberText {x : Float} {negative : Bool} {units : ℕ}
    (h : Binary64.ofFloat x = .finite negative units) :
    (negative = false → ∃ w units', Binary64.ofFloat w = .finite false units' ∧
      tokenize (numberText x) = .ok ⟨[⟨.number w, 0⟩], (numberText x).utf8ByteSize⟩ ∧
      (units' = 0 → units = 0) ∧
      (numberText w = numberText x ↔ units ≠ 202403) ∧
      (units = 202403 → units' = 202402 ∧ numberText x = "1e-318" ∧
        numberText w = "9.99999e-319")) ∧
    (negative = true → numberText x = "-" ++ numberText (-x)) := by
  constructor
  · rintro rfl
    obtain ⟨numeral, hcomplete, htext, -, hvalue⟩ := exists_numeral_of_rereadNumber h
    obtain ⟨units', hreread, hnearest⟩ := exists_isNearest_rereadNumber h
    obtain ⟨pattern, -, hpattern⟩ := Binary64.exists_pattern_of_finite h
    have hclose := hpattern ▸ hnearest.closest pattern
    have hexception (hunits : units = 202403) : units' = 202402 ∧ numberText x = "1e-318" ∧
        numberText (rereadNumber x) = "9.99999e-319" := by
      have hunstable : x = unstableNumber := by
        rw [hunits] at h
        exact Binary64.eq_of_finite h ofFloat_unstableNumber
      rw [hunstable, rereadNumber_unstable.1] at hreread ⊢
      have hreading : Binary64.ofFloat unstableReading = .finite false 202402 := rfl
      obtain ⟨htext, htext'⟩ := text_unstable
      refine ⟨?_, by rw [numberText, htext, String.ofList_toList],
        by rw [numberText, htext', String.ofList_toList]⟩
      simpa using hreread.symm.trans hreading
    refine ⟨rereadNumber x, units', hreread, ?_, ?_, ?_, hexception⟩
    · exact tokenize_of_numeral hcomplete (by rw [numberText, String.toList_ofList, htext]) hvalue
    · intro hzero
      by_contra hunits
      exact absurd hzero (pos_of_closer (Nat.pos_of_ne_zero hunits) Binary64.one_pos hclose).ne'
    · constructor
      · intro hsame hunits
        obtain ⟨-, hfirst, hagain⟩ := hexception hunits
        rw [hfirst, hagain] at hsame
        exact absurd hsame (by decide)
      · intro hunits
        rw [numberText, text_rereadNumber h hunits]
        rfl
  · rintro rfl
    rw [numberText, numberText, text_of_finite_true h, Binary64.neg_of_finite h,
      String.ofList_cons]
    rfl

/-- The least positive number is written as the token it is read back as, and after a minus sign
if it is negated. -/
theorem tokenize_numberText_least :
    (∃ w, tokenize (numberText (Float.ofBits 1)) =
        .ok ⟨[⟨.number w, 0⟩], (numberText (Float.ofBits 1)).utf8ByteSize⟩ ∧
      numberText w = numberText (Float.ofBits 1)) ∧
    numberText (Float.ofBits 0x8000000000000001) =
      "-" ++ numberText (-Float.ofBits 0x8000000000000001) := by
  have hleast : Binary64.ofFloat (Float.ofBits 1) = .finite false 1 := rfl
  have hnegated : Binary64.ofFloat (Float.ofBits 0x8000000000000001) = .finite true 1 := rfl
  obtain ⟨w, _, -, htokens, -, hsame, -⟩ := (tokenize_numberText hleast).1 rfl
  exact ⟨⟨w, htokens, hsame.2 (by decide)⟩, (tokenize_numberText hnegated).2 rfl⟩

/-- The text of `202403 * 2 ^ -1074` is read as a number with another text. -/
theorem tokenize_numberText_unstable :
    Binary64.ofFloat unstableNumber = .finite false 202403 ∧
      numberText unstableNumber = "1e-318" ∧
      tokenize "1e-318" = .ok ⟨[⟨.number unstableReading, 0⟩], 6⟩ ∧
      numberText unstableReading = "9.99999e-319" ∧
      numberText unstableReading ≠ numberText unstableNumber := by
  obtain ⟨htext, htext'⟩ := text_unstable
  have hnumber : numberText unstableNumber = "1e-318" := by
    rw [numberText, htext, String.ofList_toList]
  have hreading : numberText unstableReading = "9.99999e-319" := by
    rw [numberText, htext', String.ofList_toList]
  refine ⟨ofFloat_unstableNumber, hnumber, ?_, hreading, by rw [hnumber, hreading]; decide⟩
  obtain ⟨numeral, hcomplete, hwritten, -, hvalue⟩ :=
    exists_numeral_of_rereadNumber ofFloat_unstableNumber
  rw [rereadNumber_unstable.1] at hvalue
  exact tokenize_of_numeral hcomplete (htext.symm.trans hwritten) hvalue

end Calculator
