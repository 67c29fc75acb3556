import Calculator.Proofs.Faults
import Calculator.Proofs.FixedPoint
import Calculator.Proofs.Differences

/-!
# Values of rendered formulas

A formula and what its rendering is parsed as have the same defects, so both have values in every
environment if one has. The values are the same if six digits are enough for every literal.

Otherwise no tolerance can be given. A quotient whose divisor is the difference of a variable and
the literal is undefined where the variable has the literal's value and the dividend is zero, and
it is zero there once the literal has changed.
-/

namespace Calculator

open Number

/-- Two results count as the same value: neither is a number, they are equal, or they differ by a
small part of the greater one. -/
def sameValue (x y : Float) : Bool :=
  (x.isNaN && y.isNaN) || x == y || decide ((x - y).abs ≤ 1e-9 * max x.abs y.abs)

/-- A result is the same value as itself. -/
theorem sameValue_self (x : Float) : sameValue x x = true := by
  have hself : x.isNaN = true ∨ (x == x) = true := by
    change x.toModel.unpack.isNaN = true ∨ x.toModel.unpack.beq x.toModel.unpack = true
    cases x.toModel.unpack with
    | notANumber => exact .inl rfl
    | infinity sign => cases sign <;> exact .inr rfl
    | zero sign => exact .inr rfl
    | finite sign mantissa exponent hpos =>
      right
      have hexponent : compare exponent exponent = .eq := Std.ReflCmp.compare_self
      have hmantissa : compare mantissa mantissa = .eq := Std.ReflCmp.compare_self
      cases sign with
      | positive =>
        change (some ((compare exponent exponent).then (compare mantissa mantissa)) ==
          some .eq) = true
        rw [hexponent, hmantissa]
        rfl
      | negative =>
        change (some ((compare exponent exponent).then (compare mantissa mantissa)).swap ==
          some .eq) = true
        rw [hexponent, hmantissa]
        rfl
  unfold sameValue
  rcases hself with h | h
  · rw [h, Bool.and_self, Bool.true_or, Bool.true_or]
  · rw [h, Bool.or_true, Bool.true_or]

namespace Number.Binary64

/-- The decimal places of a unit. -/
def unitPlaces : ℕ := 1074

/-- A number of units with all its decimal places. -/
def exactDecimal (units : ℕ) : Decimal :=
  ⟨units * Nat.pow 5 unitPlaces, -unitPlaces⟩

/-- With all its decimal places a number of units is what it is. -/
theorem toRat_exactDecimal (units : ℕ) : (exactDecimal units).toRat = (units : ℚ) / one := by
  have hten : (10 : ℚ) = 2 * 5 := by norm_num
  have hone : one = 2 ^ unitPlaces := by decide +kernel
  rw [exactDecimal, Decimal.toRat, hone, zpow_neg, zpow_natCast, hten, mul_pow, Nat.pow_eq]
  push_cast
  field_simp

/-- Every finite number without a minus sign is read from a numeral. -/
theorem exists_numeral {x : Float} {units : ℕ} (h : ofFloat x = .finite false units) :
    ∃ numeral : Numeral, numeral.IsComplete ∧ numeral.value.toFloat? = some x := by
  have hvalue := (exactDecimal units).toRat_value_numeral.trans (toRat_exactDecimal units)
  have hone := cast_one_pos
  have hgreatest : (units : ℚ) / one ≤ greatest := by
    rw [div_le_iff₀ hone]
    exact_mod_cast units_le_of_finite h
  have hless : (greatest : ℚ) < finiteRange := by exact_mod_cast greatest_bounds.1
  have hrange : (exactDecimal units).numeral.value.toRat < finiteRange :=
    hvalue.trans_lt (hgreatest.trans_lt hless)
  obtain ⟨value, hread⟩ := Decimal.toFloat?_isSome hrange
  obtain ⟨units', hunits', hnearest⟩ := Decimal.ofFloat_of_toFloat? hread
  obtain ⟨pattern, _, hpattern⟩ := exists_pattern_of_finite h
  have hclosest := hnearest.closest pattern
  rw [hpattern, hvalue, sub_self, abs_zero, abs_nonpos_iff, sub_eq_zero] at hclosest
  have hsame : units' = units := by
    exact_mod_cast (div_left_inj' hone.ne').1 hclosest
  rw [hsame] at hunits'
  exact ⟨_, Decimal.isComplete_numeral _, eq_of_finite hunits' h ▸ hread⟩

end Number.Binary64

namespace Formula

mutual

/-- A formula read back has the defect that it had, and the same variables. -/
theorem check_reread (formula : Formula) (names : Names) :
    formula.reread.check names = formula.check names := by
  cases formula with
  | literal value =>
    unfold reread
    split <;> rfl
  | «variable» name => rfl
  | unary symbol operand => simp only [reread, check, check_reread operand]
  | binary left symbol right => simp only [reread, check, check_reread left, check_reread right]
  | call name arguments =>
    simp only [reread, check, length_rereadAll, checkAll_rereadAll arguments]

/-- Formulas read back have the defect that they had, and the same variables. -/
theorem checkAll_rereadAll (formulas : List Formula) (names : Names) :
    checkAll (rereadAll formulas) names = checkAll formulas names := by
  cases formulas with
  | nil => rfl
  | cons formula formulas =>
    simp only [rereadAll, checkAll, check_reread formula, checkAll_rereadAll formulas]

end

/-- A quotient whose divisor is the difference of a variable and a number. -/
def amplified (x : Float) : Formula :=
  .binary (.variable "y") '/' (.binary (.variable "x") '-' (.literal x))

/-- What an amplified number computes. -/
theorem eval_amplified (x : Float) (environment : Environment) :
    (amplified x).eval environment =
      .ok (environment.value "y" / (environment.value "x" - x)) :=
  rfl

/-- An amplified number has no defect. -/
theorem check_amplified (x : Float) : ((amplified x).check ∅).1 = .ok () :=
  rfl

/-- An amplified number is parsed from a text. -/
theorem exists_parse_amplified {x : Float} {units : ℕ}
    (h : Binary64.ofFloat x = .finite false units) :
    ∃ text, parse text = .ok (amplified x) := by
  obtain ⟨numeral, hcomplete, hread⟩ := Binary64.exists_numeral h
  have hx : isIdentifier "x".toList = true := by decide
  have hy : isIdentifier "y".toList = true := by decide
  have hlevels : 4 ≤ nestingLimit := by decide
  have hspells := (Spells.identifier hy).operation .divide
    ((Spells.identifier hx).operation .subtract (Spells.numeral hcomplete hread)).group
  refine ⟨String.ofList ("y / (x - ".toList ++ numeral.text ++ [')']), parse_of_spells
    (.term (.operation (.operand (.identifier "y")) .divide rfl (.group (.operation
      (.term (.operand (.identifier "x"))) .subtract rfl (.operand (.number x)))))) ?_ hlevels⟩
  rw [String.toList_ofList]
  exact hspells

/-- The text of an amplified number is parsed again. -/
theorem parse_render_amplified {x : Float} {units : ℕ}
    (h : Binary64.ofFloat x = .finite false units) :
    parse (amplified x).render = .ok (amplified (rereadNumber x)) := by
  have hwritable : (amplified x).isWritable = true := by
    simp only [amplified, isWritable, h]
    rfl
  have hnesting : (amplified x).nesting = 4 := by
    simp only [amplified, nesting, h]
    rfl
  rw [(parse_render_of_nesting hwritable).1 (hnesting ▸ by decide)]
  simp only [amplified, reread, h]
  rfl

/-- A literal that its text does not keep is told apart from what it is read back as by a formula
that divides nothing by the difference of the two. -/
theorem exists_formula_of_not_isExact {x : Float} {units : ℕ}
    (h : Binary64.ofFloat x = .finite false units) (hinexact : ¬ IsExact x) :
    ∃ (text : String) (formula again : Formula) (environment : Environment) (value value' : Float),
      parse text = .ok formula ∧ (formula.check ∅).1 = .ok () ∧ formula.literals = [x] ∧
      parse formula.render = .ok again ∧ formula.eval environment = .ok value ∧
      again.eval environment = .ok value' ∧ sameValue value value' = false := by
  obtain ⟨text, hparse⟩ := exists_parse_amplified h
  obtain ⟨units', hunits', _⟩ := exists_isNearest_rereadNumber h
  have hne : units ≠ units' := by
    rintro rfl
    rw [IsExact, Binary64.abs_of_finite h] at hinexact
    exact hinexact (Binary64.eq_of_finite hunits' h)
  let environment : Environment := Std.ExtTreeMap.insert ∅ "x" x
  have hx : environment.value "x" = x := by
    rw [Environment.value_insert, if_pos rfl]
  have hy : environment.value "y" = 0.0 := by
    rw [Environment.value_insert, if_neg (by decide)]
    rfl
  have heval := eval_amplified x environment
  have heval' := eval_amplified (rereadNumber x) environment
  rw [hx, hy] at heval heval'
  rw [Binary64.sub_self_of_finite h] at heval
  refine ⟨text, amplified x, amplified (rereadNumber x), environment, _, _, hparse,
    check_amplified x, rfl, parse_render_amplified h, heval, heval', ?_⟩
  rcases Binary64.zero_div_of_isNonzero (Binary64.isNonzero_unpack_sub h hunits' hne) with
    hzero | hzero
  · rw [hzero]
    rfl
  · rw [hzero]
    rfl

/-- What the rendering of a formula is parsed as is the formula with its literals read back from
their text. Both have values in every environment, and the same ones if every literal is what
its text denotes. This condition on a literal cannot be left out: every other finite number
without a minus sign is the only literal of a formula that has another value after rendering. -/
theorem eval_parse_render :
    (∀ (text : String) (formula again : Formula), parse text = .ok formula →
      (formula.check ∅).1 = .ok () → parse formula.render = .ok again →
      again = formula.reread ∧ ∀ environment, ∃ value value',
        formula.eval environment = .ok value ∧ again.eval environment = .ok value' ∧
        ((∀ x ∈ formula.literals, IsExact x) →
          value' = value ∧ sameValue value value' = true)) ∧
    (∀ (x : Float) (units : ℕ), Binary64.ofFloat x = .finite false units → ¬ IsExact x →
      ∃ (text : String) (formula again : Formula) (environment : Environment)
        (value value' : Float), parse text = .ok formula ∧ (formula.check ∅).1 = .ok () ∧
        formula.literals = [x] ∧ parse formula.render = .ok again ∧
        formula.eval environment = .ok value ∧ again.eval environment = .ok value' ∧
        sameValue value value' = false) := by
  refine ⟨?_, fun x units h hinexact => exists_formula_of_not_isExact h hinexact⟩
  intro text formula again hparse hcheck hagain
  have hwritable := isWritable_of_parse hparse
  have hnesting := nesting_le_of_parse_render hwritable hagain
  have hreread := (parse_render_of_nesting hwritable).1 hnesting
  obtain rfl : again = formula.reread := Except.ok.inj (hagain.symm.trans hreread)
  refine ⟨rfl, fun environment => ?_⟩
  obtain ⟨value, heval⟩ := exists_eval_of_check hcheck environment
  have hcheck' : (formula.reread.check ∅).1 = .ok () := by rw [check_reread, hcheck]
  obtain ⟨value', heval'⟩ := exists_eval_of_check hcheck' environment
  refine ⟨value, value', heval, heval', fun hexact => ?_⟩
  have hsame : value' = value := by
    rw [eval_reread formula hwritable hexact, heval] at heval'
    exact (Except.ok.inj heval').symm
  rw [hsame]
  exact ⟨rfl, sameValue_self value⟩

/-- Half of a variable. -/
def half : Formula :=
  .binary (.variable "x") '/' (.literal 2.0)

/-- The literal of `x / 2` is exact, so the quotient is what it was after rendering, and the
literal `1.0000001` is the only one of a formula that computes something else. -/
theorem eval_parse_render_half :
    (parse "x / 2" = .ok half ∧ half.render = "x / 2" ∧ ∀ environment, ∃ value value',
      half.eval environment = .ok value ∧ half.eval environment = .ok value' ∧
        value' = value ∧ sameValue value value' = true) ∧
    ∃ (text : String) (formula again : Formula) (environment : Environment)
      (value value' : Float), parse text = .ok formula ∧ (formula.check ∅).1 = .ok () ∧
      formula.literals = [1.0000001] ∧ parse formula.render = .ok again ∧
      formula.eval environment = .ok value ∧ again.eval environment = .ok value' ∧
      sameValue value value' = false := by
  have hname : isIdentifier "x".toList = true := by decide
  have htwo : Numeral.IsComplete ⟨['2'], none, none⟩ := by decide
  have hread : (Numeral.value ⟨['2'], none, none⟩).toFloat? = some 2.0 := by decide +kernel
  have hparse : parse "x / 2" = .ok half :=
    parse_of_spells (.term (.operation (.operand (.identifier "x")) .divide rfl (.number 2.0)))
      ((Spells.identifier hname).operation .divide (Spells.numeral htwo hread))
      (by decide : 2 ≤ nestingLimit)
  have hrender : half.render = "x / 2" := by decide +kernel
  have hexact : IsExact 2.0 := by
    unfold IsExact
    decide +kernel
  have hinexact : ¬ IsExact 1.0000001 := by
    unfold IsExact
    decide +kernel
  have hunits : Binary64.ofFloat 1.0000001 =
      .finite false (Binary64.unitsOfPattern (Float.toBits 1.0000001).toNat) :=
    rfl
  refine ⟨⟨hparse, hrender, fun environment => ?_⟩, eval_parse_render.2 _ _ hunits hinexact⟩
  obtain ⟨value, value', heval, heval', hsame⟩ :=
    (eval_parse_render.1 _ _ _ hparse rfl (hrender ▸ hparse)).2 environment
  refine ⟨value, value', heval, heval', hsame fun x hx => ?_⟩
  obtain rfl : x = 2.0 := List.mem_singleton.1 hx
  exact hexact

/-- The difference of `1.0000001` and one is not zero, but it is rendered as that of one and
one. -/
theorem eval_render_difference :
    ∃ formula again value value', parse "1.0000001 - 1" = .ok formula ∧
      (formula.check ∅).1 = .ok () ∧ formula.render = "(1 - 1)" ∧
      parse "(1 - 1)" = .ok again ∧ formula.eval ∅ = .ok value ∧ again.eval ∅ = .ok value' ∧
      sameValue value value' = false := by
  let written : Numeral := ⟨['1'], some ['0', '0', '0', '0', '0', '0', '1'], none⟩
  let shown : Numeral := ⟨['1'], none, none⟩
  have hwritten : Spells written.text [.number 1.0000001] :=
    Spells.numeral (by decide) (by decide +kernel)
  have hshown : Spells shown.text [.number 1.0] :=
    Spells.numeral (by decide) (by decide +kernel)
  have hparse : parse "1.0000001 - 1" = .ok (.binary (.literal 1.0000001) '-' (.literal 1.0)) :=
    parse_of_spells (.operation (.term (.operand (.number 1.0000001))) .subtract rfl
      (.operand (.number 1.0))) (hwritten.operation .subtract hshown)
      (by decide : 2 ≤ nestingLimit)
  have hagain : parse "(1 - 1)" = .ok (.binary (.literal 1.0) '-' (.literal 1.0)) :=
    parse_of_spells (.term (.operand (.group (.operation (.term (.operand (.number 1.0)))
      .subtract rfl (.operand (.number 1.0)))))) (hshown.operation .subtract hshown).group
      (by decide : 3 ≤ nestingLimit)
  have hrender : render (.binary (.literal 1.0000001) '-' (.literal 1.0)) = "(1 - 1)" := by
    decide +kernel
  exact ⟨_, _, 1.0000001 - 1.0, 1.0 - 1.0, hparse, rfl, hrender, hagain, rfl, rfl, rfl⟩

end Formula

end Calculator
