import Calculator.Proofs.RoundTrip
import Calculator.Proofs.Stability

/-!
# Rendering a rendered formula

A formula read back from its rendering has the shape it had, takes up as many levels, and is
read back as itself from then on. So what a rendering is parsed as is parsed again from its own
rendering. The two renderings are the same text unless the formula has the unstable literal.
-/

namespace Calculator

/-- The bits denote the unstable number or its negative. -/
def Number.Binary64.isUnstable : Number.Binary64 → Bool
  | .finite _ units => units = unstableUnits
  | _ => false

open Number

/-- The text of a number read back from that of a finite number without a minus sign is as long,
six characters being put on only by the unstable one. -/
theorem length_text_rereadNumber {x : Float} {units : ℕ}
    (h : Binary64.ofFloat x = .finite false units) :
    (literalNotation.text (rereadNumber x)).length =
      (literalNotation.text x).length + if (Binary64.ofFloat x).isUnstable then 6 else 0 := by
  by_cases hstable : units = Binary64.unstableUnits
  · have hunstable : (Binary64.ofFloat x).isUnstable = true := by
      simp [h, Binary64.isUnstable, hstable]
    obtain rfl : x = unstableNumber := by
      rw [hstable] at h
      exact Binary64.eq_of_finite h ofFloat_unstableNumber
    rw [if_pos hunstable, rereadNumber_unstable.1, text_unstable.2, text_unstable.1]
    rfl
  · have hunstable : ¬ (Binary64.ofFloat x).isUnstable = true := by
      simp [h, Binary64.isUnstable, hstable]
    rw [if_neg hunstable, text_rereadNumber h hstable, Nat.add_zero]

namespace Formula

/-- A formula read back is a multiplicative operation if it was one. -/
@[simp] theorem isMultiplicative_reread (formula : Formula) :
    formula.reread.isMultiplicative = formula.isMultiplicative := by
  cases formula with
  | literal value =>
    unfold reread
    split <;> rfl
  | _ => rfl

/-- A formula read back has as long a spine. -/
@[simp] theorem spine_reread (formula : Formula) : formula.reread.spine = formula.spine := by
  cases formula with
  | literal value =>
    unfold reread
    split <;> rfl
  | binary left symbol right => simp only [reread, spine, spine_reread left]
  | _ => rfl

/-- A literal without a minus sign is read back as itself from then on. -/
theorem reread_literal_rereadNumber {x : Float} {units : ℕ}
    (h : Binary64.ofFloat x = .finite false units) :
    reread (.literal (rereadNumber x)) = .literal (rereadNumber x) := by
  obtain ⟨units', hreread, _⟩ := exists_isNearest_rereadNumber h
  rw [reread_literal_of_finite_false hreread, rereadNumber_rereadNumber h]

/-- A literal read back takes up as many levels. -/
theorem nesting_reread_literal {value : Float}
    (h : (Binary64.ofFloat value).isFinite = true) :
    (reread (.literal value)).nesting = nesting (.literal value) := by
  obtain ⟨negative, units, hvalue⟩ := Binary64.exists_of_isFinite h
  cases negative with
  | true =>
    obtain ⟨units', hreread, _⟩ := exists_isNearest_rereadNumber (Binary64.ofFloat_abs hvalue)
    rw [reread_literal_of_finite_true hvalue]
    simp [nesting, hvalue, hreread, Binary64.isNegative, isMultiplicative, parenthesisLevels]
  | false =>
    obtain ⟨units', hreread, _⟩ := exists_isNearest_rereadNumber hvalue
    rw [reread_literal_of_finite_false hvalue]
    simp [nesting, hvalue, hreread, Binary64.isNegative]

/-- A literal read back is read back as itself. -/
theorem reread_reread_literal {value : Float}
    (h : (Binary64.ofFloat value).isFinite = true) :
    (reread (.literal value)).reread = reread (.literal value) := by
  obtain ⟨negative, units, hvalue⟩ := Binary64.exists_of_isFinite h
  cases negative with
  | true =>
    rw [reread_literal_of_finite_true hvalue, reread,
      reread_literal_rereadNumber (Binary64.ofFloat_abs hvalue)]
  | false => rw [reread_literal_of_finite_false hvalue, reread_literal_rereadNumber hvalue]

mutual

/-- A formula read back takes up as many levels. -/
theorem nesting_reread (formula : Formula) (h : formula.isWritable = true) :
    formula.reread.nesting = formula.nesting := by
  cases formula with
  | literal value => exact nesting_reread_literal h
  | «variable» name => rfl
  | unary symbol operand =>
    simp only [isWritable, Bool.and_eq_true] at h
    simp only [reread, nesting, isMultiplicative_reread, nesting_reread operand h.2]
  | binary left symbol right =>
    simp only [isWritable, Bool.and_eq_true] at h
    simp only [reread, nesting, isMultiplicative_reread, spine_reread,
      nesting_reread left h.1.2, nesting_reread right h.2]
  | call name arguments =>
    simp only [isWritable, Bool.and_eq_true] at h
    simp only [reread, nesting, nestingAll_rereadAll arguments h.2]

/-- Formulas read back take up as many levels. -/
theorem nestingAll_rereadAll (formulas : List Formula) (h : areWritable formulas = true) :
    nestingAll (rereadAll formulas) = nestingAll formulas := by
  cases formulas with
  | nil => rfl
  | cons formula formulas =>
    simp only [areWritable, Bool.and_eq_true] at h
    simp only [rereadAll, nestingAll, nesting_reread formula h.1,
      nestingAll_rereadAll formulas h.2]

end

mutual

/-- A formula read back is read back as itself. -/
theorem reread_reread (formula : Formula) (h : formula.isWritable = true) :
    formula.reread.reread = formula.reread := by
  cases formula with
  | literal value => exact reread_reread_literal h
  | «variable» name => rfl
  | unary symbol operand =>
    simp only [isWritable, Bool.and_eq_true] at h
    simp only [reread, reread_reread operand h.2]
  | binary left symbol right =>
    simp only [isWritable, Bool.and_eq_true] at h
    simp only [reread, reread_reread left h.1.2, reread_reread right h.2]
  | call name arguments =>
    simp only [isWritable, Bool.and_eq_true] at h
    simp only [reread, rereadAll_rereadAll arguments h.2]

/-- Formulas read back are read back as themselves. -/
theorem rereadAll_rereadAll (formulas : List Formula) (h : areWritable formulas = true) :
    rereadAll (rereadAll formulas) = rereadAll formulas := by
  cases formulas with
  | nil => rfl
  | cons formula formulas =>
    simp only [areWritable, Bool.and_eq_true] at h
    simp only [rereadAll, reread_reread formula h.1, rereadAll_rereadAll formulas h.2]

end

/-- Parentheses are two characters. -/
theorem length_parenthesized (needed : Bool) (text : List Char) :
    (parenthesized needed text).length = text.length + if needed then 2 else 0 := by
  unfold parenthesized
  split <;> simp

/-- A literal read back is rendered with six more characters if it is unstable. -/
theorem length_characters_reread_literal {value : Float}
    (h : (Binary64.ofFloat value).isFinite = true) :
    (reread (.literal value)).characters.length = (literalNotation.text value).length +
      if (Binary64.ofFloat value).isUnstable then 6 else 0 := by
  obtain ⟨negative, units, hvalue⟩ := Binary64.exists_of_isFinite h
  cases negative with
  | true =>
    have habs := Binary64.ofFloat_abs hvalue
    have hlength := length_text_rereadNumber habs
    rw [habs] at hlength
    rw [reread_literal_of_finite_true hvalue, text_of_finite_true hvalue, hvalue, characters,
      characters, List.length_cons, List.length_cons, length_parenthesized, hlength]
    have hsame : (Binary64.finite true units).isUnstable =
        (Binary64.finite false units).isUnstable := rfl
    have hbare : (literal (rereadNumber value.abs)).isMultiplicative = false := rfl
    rw [hsame, hbare, if_neg Bool.false_ne_true]
    omega
  | false =>
    rw [reread_literal_of_finite_false hvalue, characters, length_text_rereadNumber hvalue]

/-- A literal that is not unstable is rendered again as it was. -/
theorem characters_reread_literal {value : Float}
    (h : (Binary64.ofFloat value).isFinite = true)
    (hstable : (Binary64.ofFloat value).isUnstable = false) :
    (reread (.literal value)).characters = literalNotation.text value := by
  obtain ⟨negative, units, hvalue⟩ := Binary64.exists_of_isFinite h
  have hunits : units ≠ Binary64.unstableUnits := by
    simpa [hvalue, Binary64.isUnstable] using hstable
  cases negative with
  | true =>
    rw [reread_literal_of_finite_true hvalue, text_of_finite_true hvalue, characters, characters,
      text_rereadNumber (Binary64.ofFloat_abs hvalue) hunits]
    rfl
  | false => rw [reread_literal_of_finite_false hvalue, characters, text_rereadNumber hvalue hunits]

mutual

/-- A formula read back is rendered with six more characters for each unstable literal. -/
theorem length_characters_reread (formula : Formula) (h : formula.isWritable = true) :
    formula.reread.characters.length = formula.characters.length +
      6 * formula.literals.countP fun x => (Binary64.ofFloat x).isUnstable := by
  cases formula with
  | literal value =>
    rw [length_characters_reread_literal h, characters, literals, List.countP_singleton]
    split <;> rfl
  | «variable» name => rfl
  | unary symbol operand =>
    simp only [isWritable, Bool.and_eq_true] at h
    simp only [reread, characters, List.length_cons, length_parenthesized, literals,
      isMultiplicative_reread, length_characters_reread operand h.2]
    omega
  | binary left symbol right =>
    simp only [isWritable, Bool.and_eq_true] at h
    simp only [reread, characters, List.length_append, length_parenthesized, literals,
      isMultiplicative_reread, length_characters_reread left h.1.2,
      length_characters_reread right h.2, List.countP_append]
    omega
  | call name arguments =>
    simp only [isWritable, Bool.and_eq_true] at h
    simp only [reread, characters, List.length_append, literals, List.length_cons,
      length_listCharacters_rereadAll arguments h.2]
    omega

/-- Formulas read back are rendered with six more characters for each unstable literal. -/
theorem length_listCharacters_rereadAll (formulas : List Formula)
    (h : areWritable formulas = true) :
    (listCharacters (rereadAll formulas)).length = (listCharacters formulas).length +
      6 * (literalsAll formulas).countP fun x => (Binary64.ofFloat x).isUnstable := by
  match formulas with
  | [] => rfl
  | [formula] =>
    simp only [areWritable, Bool.and_eq_true] at h
    simp only [rereadAll, listCharacters, literalsAll, List.append_nil,
      length_characters_reread formula h.1]
  | formula :: next :: others =>
    rw [areWritable, Bool.and_eq_true] at h
    have hothers := length_listCharacters_rereadAll (next :: others) h.2
    rw [rereadAll] at hothers ⊢
    rw [rereadAll, listCharacters, listCharacters, literalsAll, List.countP_append]
    simp only [List.length_append, hothers, length_characters_reread formula h.1]
    omega

end

mutual

/-- A formula without unstable literals is rendered again as it was. -/
theorem characters_reread (formula : Formula) (h : formula.isWritable = true)
    (hstable : ∀ x ∈ formula.literals, (Binary64.ofFloat x).isUnstable = false) :
    formula.reread.characters = formula.characters := by
  cases formula with
  | literal value => exact characters_reread_literal h (hstable value (by simp [literals]))
  | «variable» name => rfl
  | unary symbol operand =>
    simp only [isWritable, Bool.and_eq_true] at h
    rw [reread, characters, characters, isMultiplicative_reread,
      characters_reread operand h.2 hstable]
  | binary left symbol right =>
    simp only [isWritable, Bool.and_eq_true] at h
    simp only [literals, List.forall_mem_append] at hstable
    rw [reread, characters, characters, isMultiplicative_reread,
      characters_reread left h.1.2 hstable.1, characters_reread right h.2 hstable.2]
  | call name arguments =>
    simp only [isWritable, Bool.and_eq_true] at h
    rw [reread, characters, characters, listCharacters_rereadAll arguments h.2 hstable]

/-- Formulas without unstable literals are rendered again as they were. -/
theorem listCharacters_rereadAll (formulas : List Formula) (h : areWritable formulas = true)
    (hstable : ∀ x ∈ literalsAll formulas, (Binary64.ofFloat x).isUnstable = false) :
    listCharacters (rereadAll formulas) = listCharacters formulas := by
  match formulas with
  | [] => rfl
  | [formula] =>
    simp only [areWritable, Bool.and_eq_true] at h
    simp only [literalsAll, List.append_nil] at hstable
    rw [rereadAll, rereadAll, listCharacters, listCharacters,
      characters_reread formula h.1 hstable]
  | formula :: next :: others =>
    rw [areWritable, Bool.and_eq_true] at h
    rw [literalsAll, List.forall_mem_append] at hstable
    have hothers := listCharacters_rereadAll (next :: others) h.2 hstable.2
    rw [rereadAll] at hothers ⊢
    rw [rereadAll, listCharacters, listCharacters, hothers,
      characters_reread formula h.1 hstable.1]

end

/-- A formula is rendered again as it was if and only if it has no unstable literal. -/
theorem render_reread_iff {formula : Formula} (h : formula.isWritable = true) :
    formula.reread.render = formula.render ↔
      ∀ x ∈ formula.literals, (Binary64.ofFloat x).isUnstable = false := by
  constructor
  · intro hsame
    have hcharacters : formula.reread.characters = formula.characters := by
      simpa [render] using congrArg String.toList hsame
    have hlength := length_characters_reread formula h
    rw [hcharacters] at hlength
    have hnone : (formula.literals.countP fun x => (Binary64.ofFloat x).isUnstable) = 0 := by
      omega
    simpa [List.countP_eq_zero] using hnone
  · intro hstable
    rw [render, render, characters_reread formula h hstable]

/-- A numeral that is read is parsed as the literal it is read as. -/
theorem parse_numeral {text : String} {numeral : Numeral} {value : Float}
    (hcomplete : numeral.IsComplete) (htext : text.toList = numeral.text)
    (hvalue : numeral.value.toFloat? = some value) : parse text = .ok (.literal value) :=
  parse_of_spells (.term (.operand (.number value)))
    (htext ▸ Spells.numeral hcomplete hvalue) (by decide : 1 ≤ nestingLimit)

/-- The unstable number is the literal of a formula. -/
theorem parse_unstableNumber : parse "1.000004e-318" = .ok (.literal unstableNumber) := by
  let numeral : Numeral :=
    ⟨['1'], some ['0', '0', '0', '0', '0', '4'], some ⟨'e', some .minus, ['3', '1', '8']⟩⟩
  have hcomplete : numeral.IsComplete := by decide
  have hread : numeral.value.toFloat? = some unstableNumber := by decide +kernel
  exact parse_numeral hcomplete rfl hread

/-- The text of the unstable number is parsed as another literal. -/
theorem parse_render_unstableNumber :
    parse (render (.literal unstableNumber)) = .ok (.literal unstableReading) := by
  have hwritable : isWritable (.literal unstableNumber) = true := by
    rw [isWritable, ofFloat_unstableNumber]
    rfl
  have hnesting : nesting (.literal unstableNumber) ≤ nestingLimit := by
    rw [nesting, ofFloat_unstableNumber]
    decide
  rw [(parse_render_of_nesting hwritable).1 hnesting,
    reread_literal_of_finite_false ofFloat_unstableNumber, rereadNumber_unstable.1]

/-- What the rendering of a parsed formula is parsed as is parsed from its own rendering again,
with all its literals. The two renderings are the same text if and only if the formula does not
have the literal `1.000004e-318`, which is written as `1e-318` and read back as a number that is
written as `9.99999e-319`. -/
theorem parse_render_again {text : String} {formula again : Formula}
    (h : parse text = .ok formula) (hagain : parse formula.render = .ok again) :
    parse again.render = .ok again ∧
      (again.render = formula.render ↔ unstableNumber ∉ formula.literals) := by
  have hwritable := isWritable_of_parse h
  have hnesting := nesting_le_of_parse_render hwritable hagain
  have hreread := (parse_render_of_nesting hwritable).1 hnesting
  obtain rfl : formula.reread = again := Except.ok.inj (hreread.symm.trans hagain)
  have hwritable' := isWritable_of_parse hagain
  rw [← nesting_reread formula hwritable] at hnesting
  have hfixed := (parse_render_of_nesting hwritable').1 hnesting
  rw [reread_reread formula hwritable] at hfixed
  refine ⟨hfixed, (render_reread_iff hwritable).trans ⟨?_, ?_⟩⟩
  · intro hstable hmem
    have hunstable := hstable unstableNumber hmem
    rw [ofFloat_unstableNumber] at hunstable
    exact absurd hunstable (by decide)
  · intro hmem x hx
    obtain ⟨units, hvalue⟩ := finite_of_mem_literals h hx
    by_contra hunstable
    have hunits : units = Binary64.unstableUnits := by
      simpa [hvalue, Binary64.isUnstable] using hunstable
    rw [hunits] at hvalue
    exact hmem (Binary64.eq_of_finite hvalue ofFloat_unstableNumber ▸ hx)

/-- The unstable literal is parsed from its second rendering on as the literal after the first. -/
theorem parse_render_again_unstable :
    parse "1.000004e-318" = .ok (.literal unstableNumber) ∧
      parse (render (.literal unstableNumber)) = .ok (.literal unstableReading) ∧
      parse (render (.literal unstableReading)) = .ok (.literal unstableReading) ∧
      render (.literal unstableReading) ≠ render (.literal unstableNumber) := by
  obtain ⟨hfixed, hsame⟩ := parse_render_again parse_unstableNumber parse_render_unstableNumber
  refine ⟨parse_unstableNumber, parse_render_unstableNumber, hfixed, fun hrender => ?_⟩
  exact hsame.1 hrender (List.mem_singleton.2 rfl)

/-- The literal `1.000004e-318` is rendered as `1e-318`, and what this is parsed as is rendered as
`9.99999e-319`. -/
theorem render_parse_render_unstable :
    parse "1.000004e-318" = .ok (.literal unstableNumber) ∧
      render (.literal unstableNumber) = "1e-318" ∧
      parse "1e-318" = .ok (.literal unstableReading) ∧
      render (.literal unstableReading) = "9.99999e-319" := by
  have hrender : render (.literal unstableNumber) = "1e-318" := by
    rw [render, characters, text_unstable.1, String.ofList_toList]
  have hrender' : render (.literal unstableReading) = "9.99999e-319" := by
    rw [render, characters, text_unstable.2, String.ofList_toList]
  exact ⟨parse_unstableNumber, hrender, hrender ▸ parse_render_unstableNumber, hrender'⟩

end Formula

end Calculator
