import Calculator.Proofs.Acceptance
import Calculator.Proofs.Marks
import Calculator.Proofs.Proper
import Calculator.Proofs.Rendering

/-!
# From formulas to texts and back

Rendering and parsing agree on every formula that can be written, put together by hand or
parsed. What is rendered is parsed as the formula with its literals read back, or refused
because it nests too deep, and how deep it nests can be told from the formula and bounded by
its text.
-/

namespace Calculator.Formula

/-- A rendering is split into the tokens of a term that renders the formula. -/
theorem exists_tokenize_render {formula : Formula} (hwritable : formula.isWritable = true) :
    ∃ (stream : TokenStream) (term : Grammar.Term), tokenize formula.render = .ok stream ∧
      term.tokens = stream.tokens.map PlacedToken.token ∧ term.Renders formula := by
  obtain ⟨term, hterm⟩ := Grammar.exists_renders formula hwritable
  have hspells : Spells formula.render.toList term.tokens := by
    simpa [render] using hterm.spells
  obtain ⟨stream, htokens, hderived⟩ := tokenize_of_spells hspells
  exact ⟨stream, term, htokens, hderived.symm, hterm⟩

/-- A rendering is parsed as the formula with its literals read back if it has enough levels,
and otherwise refused because it nests too deep. -/
theorem parse_render_of_nesting {formula : Formula} (hwritable : formula.isWritable = true) :
    (formula.nesting ≤ nestingLimit → parse formula.render = .ok formula.reread) ∧
      (nestingLimit < formula.nesting →
        ∃ error, parse formula.render = .error (.syntactic error) ∧ error.IsTooDeep) := by
  obtain ⟨stream, term, htokens, hderived, hterm⟩ := exists_tokenize_render hwritable
  have hparse := parse_of_derivation htokens (.term term) hderived
  rwa [Grammar.Expression.levels, Grammar.Expression.formula, hterm.levels, hterm.formula] at hparse

/-- A rendering that is parsed has enough levels. -/
theorem nesting_le_of_parse_render {formula again : Formula}
    (hwritable : formula.isWritable = true) (h : parse formula.render = .ok again) :
    formula.nesting ≤ nestingLimit := by
  obtain ⟨stream, term, htokens, hderived, hterm⟩ := exists_tokenize_render hwritable
  rw [← hterm.levels]
  exact levels_le_of_parse htokens (.term term) hderived h

/-- A rendering takes up at most one level more than it has signs, operators and opening
parentheses. -/
theorem nesting_le_countP {formula : Formula} (hwritable : formula.isWritable = true) :
    formula.nesting ≤ formula.render.toList.countP writesDeepening + 1 := by
  obtain ⟨stream, term, htokens, hderived, hterm⟩ := exists_tokenize_render hwritable
  have hcount := Cursor.countP_tokens_le _ (tokens_start_of_tokenize htokens)
  rw [← hderived] at hcount
  rw [← hterm.levels]
  exact Nat.le_trans term.levels_le_countP (Nat.add_le_add_right hcount 1)

/-- Rendering and parsing agree on every formula that can be written. What it renders to is
parsed as the formula with its literals read back or refused because it nests too deep, and it
is not refused if it has at most 255 signs, operators and opening parentheses. If it is parsed
and every literal is exact in its text then the parsed formula computes the same in every
environment. -/
theorem parse_render {formula : Formula} (hwritable : formula.isWritable = true) :
    (parse formula.render = .ok formula.reread ∨
      ∃ error, parse formula.render = .error (.syntactic error) ∧ error.IsTooDeep) ∧
    (formula.render.toList.countP writesDeepening ≤ 255 →
      parse formula.render = .ok formula.reread) ∧
    (∀ again, parse formula.render = .ok again → (∀ x ∈ formula.literals, IsExact x) →
      ∀ environment, again.eval environment = formula.eval environment) := by
  obtain ⟨hfits, hdeep⟩ := parse_render_of_nesting hwritable
  refine ⟨?_, ?_, ?_⟩
  · by_cases hnesting : formula.nesting ≤ nestingLimit
    · exact .inl (hfits hnesting)
    · exact .inr (hdeep (Nat.lt_of_not_le hnesting))
  · intro hcount
    have hnesting := nesting_le_countP hwritable
    have hlimit : nestingLimit = 256 := rfl
    exact hfits (by omega)
  · intro again hagain hexact environment
    rw [hfits (nesting_le_of_parse_render hwritable hagain)] at hagain
    cases hagain
    exact eval_reread formula hwritable hexact environment

/-- A product of a negative literal and a signed quotient. -/
def signedProduct : Formula :=
  .binary (.literal (-2.5)) '*' (.unary '-' (.binary (.variable "x") '/' (.variable "y")))

/-- A negative literal is read back as a signed one, and a quotient under a sign keeps its
parentheses. -/
theorem parse_render_signedProduct :
    signedProduct.isWritable = true ∧ signedProduct.render = "-2.5 * -(x / y)" ∧
      parse "-2.5 * -(x / y)" = .ok (.binary (.unary '-' (.literal (rereadNumber 2.5))) '*'
        (.unary '-' (.binary (.variable "x") '/' (.variable "y")))) := by
  have hwritable : signedProduct.isWritable = true := by decide +kernel
  have hrender : signedProduct.render = "-2.5 * -(x / y)" := by decide +kernel
  have hparse := (parse_render hwritable).2.1 (by rw [hrender]; decide)
  have hnegative : (Number.Binary64.ofFloat (-2.5)).isNegative = true := by decide +kernel
  have habs : (-2.5 : Float).abs = 2.5 := by decide +kernel
  rw [hrender, signedProduct, reread, reread, if_pos hnegative, habs] at hparse
  exact ⟨hwritable, hrender, hparse⟩

/-- An accepted formula's rendering is accepted exactly if it takes up no more levels than there
are, and then it is parsed as the formula with its literals read back. Otherwise it is refused
because it nests too deep, and never for another reason. -/
theorem parse_render_of_parse {text : String} {formula : Formula}
    (h : parse text = .ok formula) :
    ((∃ again, parse formula.render = .ok again) ↔ formula.nesting ≤ nestingLimit) ∧
      (formula.nesting ≤ nestingLimit → parse formula.render = .ok formula.reread) ∧
      (nestingLimit < formula.nesting →
        ∃ error, parse formula.render = .error (.syntactic error) ∧ error.IsTooDeep) := by
  have hwritable := isWritable_of_parse h
  obtain ⟨hfits, hdeep⟩ := parse_render_of_nesting hwritable
  refine ⟨⟨?_, fun hnesting => ⟨_, hfits hnesting⟩⟩, hfits, hdeep⟩
  intro ⟨again, hagain⟩
  exact nesting_le_of_parse_render hwritable hagain

/-- A product of a sum is rendered with the parentheses that the sum always has. -/
theorem parse_render_of_parse_product :
    parse "x * (y + x)" = .ok (.binary (.variable "x") '*'
        (.binary (.variable "y") '+' (.variable "x"))) ∧
      ∃ again, parse "x * (y + x)" = .ok again := by
  have hwritable : isWritable (.binary (.variable "x") '*'
      (.binary (.variable "y") '+' (.variable "x"))) = true := by decide
  have htext : render (.binary (.variable "x") '*'
      (.binary (.variable "y") '+' (.variable "x"))) = "x * (y + x)" := by decide
  have hparse := (parse_render_of_nesting hwritable).1 (by decide)
  have hrender := (parse_render_of_parse hparse).1.2 (by decide)
  rw [htext] at hparse
  exact ⟨hparse, htext ▸ hrender⟩

/-- A variable with as many additions of itself. -/
def sum : ℕ → Formula
  | 0 => .variable "x"
  | count + 1 => .binary (sum count) '+' (.variable "x")

/-- The text of a sum without parentheses. -/
def sumText : ℕ → List Char
  | 0 => ['x']
  | count + 1 => sumText count ++ [' ', '+', ' '] ++ ['x']

/-- The text of a sum without parentheses derives it, with one level for each addition. -/
theorem exists_sum (count : ℕ) :
    ∃ derivation : Grammar.Expression, Spells (sumText count) derivation.tokens ∧
      derivation.formula = sum count ∧ derivation.operators = count ∧
      derivation.levels = count + 1 := by
  have hname : isIdentifier "x".toList = true := by decide
  have hvariable : Spells ['x'] [.identifier "x"] := Spells.identifier hname
  induction count with
  | zero => exact ⟨.term (.operand (.identifier "x")), hvariable, rfl, rfl, rfl⟩
  | succ count ih =>
    obtain ⟨derivation, hspells, hformula, hoperators, hlevels⟩ := ih
    refine ⟨.operation derivation .add rfl (.operand (.identifier "x")),
      hspells.operation .add hvariable, ?_, ?_, ?_⟩
    · simp only [Grammar.Expression.formula, hformula]
      rfl
    · simp only [Grammar.Expression.operators, hoperators]
    · simp only [Grammar.Expression.levels, hoperators, hlevels]
      exact Nat.max_eq_right (Nat.le_add_right _ _)

/-- The text of a sum without parentheses is accepted if there are levels for its additions. -/
theorem parse_sumText {count : ℕ} (h : count < nestingLimit) :
    parse (String.ofList (sumText count)) = .ok (sum count) := by
  obtain ⟨derivation, hspells, hformula, _, hlevels⟩ := exists_sum count
  have htext : Spells (String.ofList (sumText count)).toList derivation.tokens := by
    simpa using hspells
  obtain ⟨stream, htokens, hderived⟩ := tokenize_of_spells htext
  rw [← hformula]
  exact (parse_of_derivation htokens derivation hderived.symm).1 (by omega)

/-- The rendering of a sum takes up a level for each addition's parentheses and one more for
the addition inside all of them. -/
theorem nesting_sum (count : ℕ) : (sum (count + 1)).nesting = count + 3 := by
  induction count with
  | zero => decide
  | succ count ih =>
    have hloose : ¬ Operator.additive < precedence '+' := by decide
    rw [sum, nesting, if_neg hloose, ih, sum, spine, if_neg hloose]
    change max (count + 3) 2 + 1 = count + 1 + 3
    omega

/-- The longest sum that is accepted without parentheses is refused as it is rendered. -/
theorem parse_render_sum :
    parse (String.ofList (sumText 255)) = .ok (sum 255) ∧
      ∃ error, parse (sum 255).render = .error (.syntactic error) ∧ error.IsTooDeep := by
  have hparse : parse (String.ofList (sumText 255)) = .ok (sum 255) := parse_sumText (by decide)
  have hwritable := isWritable_of_parse hparse
  refine ⟨hparse, (parse_render_of_nesting hwritable).2 ?_⟩
  rw [nesting_sum 254]
  decide

end Calculator.Formula
