import Calculator.Proofs.Grammar
import Calculator.Proofs.Rereading

/-!
# What is rendered

A rendered formula is written like a term of the grammar, whose chain is the bare left spine of
multiplicative operations. The term stands for the formula itself with its literals read back.
How deep a rendering nests is counted on the formula: every sign, parenthesis and argument list
takes up a level, and so does every operator of a spine for the operand after it.
-/

namespace Calculator

open Grammar

namespace Formula

/-- The levels that a parenthesis takes up, if it is needed. -/
def parenthesisLevels (needed : Bool) : ℕ :=
  if needed then 1 else 0

/-- The multiplicative operations that a rendering leaves bare at its left. -/
def spine : Formula → ℕ
  | .binary left symbol _ => if Operator.additive < precedence symbol then left.spine + 1 else 0
  | _ => 0

mutual

/-- The levels of nesting that a rendering takes up. -/
def nesting : Formula → ℕ
  | .literal value => if (Number.Binary64.ofFloat value).isNegative then 2 else 1
  | .variable _ => 1
  | .unary _ operand => operand.nesting + parenthesisLevels operand.isMultiplicative + 1
  | .binary left symbol right =>
    if Operator.additive < precedence symbol then
      max left.nesting
        (left.spine + 1 + (right.nesting + parenthesisLevels right.isMultiplicative))
    else max left.nesting (left.spine + 1 + right.nesting) + 1
  | .call _ arguments => nestingAll arguments + 1

/-- The levels of nesting that the deepest of several renderings takes up. -/
def nestingAll : List Formula → ℕ
  | [] => 0
  | formula :: formulas => max formula.nesting (nestingAll formulas)

end

/-- A rendering that is no chain has no spine. -/
theorem spine_eq_zero {rendered : Formula} (h : rendered.isMultiplicative = false) :
    rendered.spine = 0 := by
  unfold isMultiplicative at h
  unfold spine
  split <;> simp_all

/-- A multiplicative operation is rendered between its operands, the right one in parentheses
if it is a chain. -/
theorem characters_of_multiplicative {op : Operator}
    (hop : op.precedence = Operator.multiplicative) (left right : Formula) :
    (Formula.binary left op.symbol right).characters =
      left.characters ++ [' ', op.symbol, ' '] ++
        parenthesized right.isMultiplicative right.characters := by
  have htight : Operator.additive < precedence op.symbol := by
    rw [precedence_symbol, hop]
    decide
  rw [characters, decide_eq_true htight]
  rfl

/-- An additive operation is rendered in parentheses. -/
theorem characters_of_additive {op : Operator}
    (hop : op.precedence = Operator.additive) (left right : Formula) :
    (Formula.binary left op.symbol right).characters =
      '(' :: (left.characters ++ [' ', op.symbol, ' '] ++ right.characters) ++ [')'] := by
  have hloose : ¬ Operator.additive < precedence op.symbol := by
    rw [precedence_symbol, hop]
    decide
  rw [characters, decide_eq_false hloose]
  rfl

end Formula

namespace Grammar

open Formula

/-- A term derives the rendering of a formula, in its tokens, its tree and its levels. It is a
single operand unless the rendering is a chain. -/
structure Term.Renders (term : Term) (rendered : Formula) : Prop where
  spells : Spells rendered.characters term.tokens
  formula : term.formula = rendered.reread
  levels : term.levels = rendered.nesting
  operators : term.operators = rendered.spine
  operand : rendered.isMultiplicative = false → ∃ only, term = .operand only

/-- An operand derives the rendering of a formula that stands in parentheses if it is a chain. -/
structure Operand.Renders (operand : Operand) (rendered : Formula) : Prop where
  spells : Spells (parenthesized rendered.isMultiplicative rendered.characters) operand.tokens
  formula : operand.formula = rendered.reread
  levels : operand.levels = rendered.nesting + parenthesisLevels rendered.isMultiplicative

/-- Arguments derive the renderings of formulas with a comma between each two. -/
structure Arguments.Render (arguments : Arguments) (rendered : List Formula) : Prop where
  spells : Spells (listCharacters rendered) arguments.tokens
  formulas : arguments.formulas = rereadAll rendered
  levels : arguments.levels = nestingAll rendered

/-- An operand that derives a rendering without parentheses is a term of its own. -/
theorem Operand.Renders.term {operand : Operand} {rendered : Formula}
    (h : operand.Renders rendered) (hsingle : rendered.isMultiplicative = false) :
    (Term.operand operand).Renders rendered := by
  obtain ⟨hspells, hformula, hlevels⟩ := h
  rw [hsingle] at hspells hlevels
  exact ⟨hspells, hformula, hlevels, (Formula.spine_eq_zero hsingle).symm, fun _ => ⟨_, rfl⟩⟩

/-- A term that derives a rendering makes an operand that derives it, in parentheses if it is a
chain. -/
theorem Term.Renders.exists_operand {term : Term} {rendered : Formula}
    (h : term.Renders rendered) : ∃ operand : Operand, operand.Renders rendered := by
  cases hchain : rendered.isMultiplicative with
  | true =>
    refine ⟨.group (.term term), ?_, h.formula, ?_⟩
    · rw [hchain]
      exact h.spells.group
    · rw [hchain, Operand.levels, Expression.levels, h.levels]
      rfl
  | false =>
    obtain ⟨only, rfl⟩ := h.operand hchain
    refine ⟨only, ?_, h.formula, ?_⟩
    · rw [hchain]
      exact h.spells
    · rw [hchain]
      exact h.levels

/-- A finite literal is rendered as a number, signed if it has a minus sign. -/
theorem exists_renders_literal {value : Float}
    (h : (Number.Binary64.ofFloat value).isFinite = true) :
    ∃ operand : Operand, operand.Renders (.literal value) := by
  obtain ⟨negative, units, hvalue⟩ := Number.Binary64.exists_of_isFinite h
  cases negative with
  | true =>
    refine ⟨.signed .minus (.number (rereadNumber value.abs)), ?_, ?_, ?_⟩
    · change Spells (literalNotation.text value) _
      rw [text_of_finite_true hvalue]
      exact (spells_text (Number.Binary64.ofFloat_abs hvalue)).mark_cons (.operator .subtract)
    · rw [reread_literal_of_finite_true hvalue]
      rfl
    · simp [nesting, hvalue, Number.Binary64.isNegative, Operand.levels, isMultiplicative,
        parenthesisLevels]
  | false =>
    refine ⟨.number (rereadNumber value), spells_text hvalue, ?_, ?_⟩
    · rw [reread_literal_of_finite_false hvalue]
      rfl
    · simp [nesting, hvalue, Number.Binary64.isNegative, Operand.levels, isMultiplicative,
        parenthesisLevels]

/-- A sign is rendered in front of its operand. -/
theorem exists_renders_unary (sign : Sign) {operand : Operand} {rendered : Formula}
    (h : operand.Renders rendered) :
    ∃ outer : Operand, outer.Renders (.unary sign.symbol rendered) := by
  refine ⟨.signed sign operand, ?_, ?_, ?_⟩
  · have hmark := h.spells.mark_cons (.operator sign.operator)
    have hsymbol : (Mark.operator sign.operator).symbol = sign.symbol := by cases sign <;> rfl
    rwa [hsymbol] at hmark
  · rw [Operand.formula, h.formula, reread]
  · rw [Operand.levels, h.levels, nesting]
    rfl

/-- A multiplicative operation is rendered as a longer chain. -/
theorem exists_renders_multiplicative {op : Operator}
    (hop : op.precedence = Operator.multiplicative) {left : Term} {right : Operand}
    {first second : Formula} (hleft : left.Renders first) (hright : right.Renders second) :
    ∃ term : Term, term.Renders (.binary first op.symbol second) := by
  have htight : Operator.additive < precedence op.symbol := by
    rw [precedence_symbol, hop]
    decide
  refine ⟨.operation left op hop right, ?_, ?_, ?_, ?_, ?_⟩
  · rw [Formula.characters_of_multiplicative hop]
    exact hleft.spells.operation op hright.spells
  · rw [Term.formula, hleft.formula, hright.formula, reread]
  · rw [Term.levels, hleft.levels, hleft.operators, hright.levels, nesting, if_pos htight]
  · rw [Term.operators, hleft.operators, spine, if_pos htight]
  · intro hsingle
    exact absurd htight (of_decide_eq_false hsingle)

/-- An additive operation is rendered in parentheses. -/
theorem exists_renders_additive {op : Operator} (hop : op.precedence = Operator.additive)
    {left right : Term} {first second : Formula} (hleft : left.Renders first)
    (hright : right.Renders second) :
    ∃ operand : Operand, operand.Renders (.binary first op.symbol second) := by
  have hloose : ¬ Operator.additive < precedence op.symbol := by
    rw [precedence_symbol, hop]
    decide
  have hsingle : (Formula.binary first op.symbol second).isMultiplicative = false :=
    decide_eq_false hloose
  refine ⟨.group (.operation (.term left) op hop right), ?_, ?_, ?_⟩
  · rw [hsingle, Formula.characters_of_additive hop]
    exact (hleft.spells.operation op hright.spells).group
  · rw [Operand.formula, Expression.formula, Expression.formula, hleft.formula, hright.formula,
      reread]
  · rw [hsingle, Operand.levels, Expression.levels, Expression.levels, Expression.operators,
      hleft.levels, hleft.operators, hright.levels, nesting, if_neg hloose]
    rfl

/-- A call is rendered as its name and its arguments in parentheses. -/
theorem exists_renders_call {name : String} (hname : isIdentifier name.toList = true)
    {arguments : Arguments} {rendered : List Formula} (h : arguments.Render rendered) :
    ∃ operand : Operand, operand.Renders (.call name rendered) := by
  refine ⟨.call name arguments, h.spells.call hname, ?_, ?_⟩
  · rw [Operand.formula, h.formulas, reread]
  · rw [Operand.levels, h.levels, nesting]
    rfl

mutual

/-- Every formula that can be written is rendered as a term. -/
theorem exists_renders (rendered : Formula) (h : rendered.isWritable = true) :
    ∃ term : Term, term.Renders rendered := by
  cases rendered with
  | literal value =>
    obtain ⟨operand, hrenders⟩ := exists_renders_literal h
    exact ⟨.operand operand, hrenders.term rfl⟩
  | «variable» name =>
    exact ⟨.operand (.identifier name), Spells.identifier h, rfl, rfl, rfl, fun _ => ⟨_, rfl⟩⟩
  | unary symbol operand =>
    simp only [isWritable, Bool.and_eq_true, Option.isSome_iff_exists] at h
    obtain ⟨⟨sign, hsign⟩, hoperand⟩ := h
    obtain rfl := Sign.ofSymbol?_eq_some_iff.1 hsign
    obtain ⟨term, hterm⟩ := exists_renders operand hoperand
    obtain ⟨inner, hinner⟩ := hterm.exists_operand
    obtain ⟨outer, houter⟩ := exists_renders_unary sign hinner
    exact ⟨.operand outer, houter.term rfl⟩
  | binary left symbol right =>
    simp only [isWritable, Bool.and_eq_true, Option.isSome_iff_exists] at h
    obtain ⟨⟨⟨op, hop⟩, hleft⟩, hright⟩ := h
    obtain rfl := Operator.ofSymbol?_eq_some_iff.1 hop
    obtain ⟨first, hfirst⟩ := exists_renders left hleft
    obtain ⟨second, hsecond⟩ := exists_renders right hright
    by_cases hloose : op.precedence < Operator.multiplicative
    · have hprecedence := Operator.precedence_eq_additive hloose
      obtain ⟨operand, hoperand⟩ := exists_renders_additive hprecedence hfirst hsecond
      refine ⟨.operand operand, hoperand.term ?_⟩
      simp [isMultiplicative, hprecedence]
    · obtain ⟨operand, hoperand⟩ := hsecond.exists_operand
      exact exists_renders_multiplicative (Operator.precedence_eq_multiplicative hloose) hfirst
        hoperand
  | call name arguments =>
    simp only [isWritable, Bool.and_eq_true] at h
    obtain ⟨⟨hname, hnonempty⟩, hall⟩ := h
    obtain ⟨derived, hderived⟩ := exists_render arguments hall (by simpa using hnonempty)
    obtain ⟨operand, hoperand⟩ := exists_renders_call hname hderived
    exact ⟨.operand operand, hoperand.term rfl⟩

/-- Formulas that can be written are rendered as arguments, if there are any. -/
theorem exists_render (rendered : List Formula) (h : areWritable rendered = true)
    (hnonempty : rendered ≠ []) : ∃ arguments : Arguments, arguments.Render rendered := by
  match rendered with
  | [] => exact absurd rfl hnonempty
  | [last] =>
    simp only [areWritable, Bool.and_eq_true] at h
    obtain ⟨term, hterm⟩ := exists_renders last h.1
    refine ⟨.last (.term term), hterm.spells, ?_, ?_⟩
    · rw [Arguments.formulas, Expression.formula, hterm.formula]
      rfl
    · rw [Arguments.levels, Expression.levels, hterm.levels]
      exact (Nat.max_zero _).symm
  | first :: next :: others =>
    rw [areWritable, Bool.and_eq_true] at h
    obtain ⟨term, hterm⟩ := exists_renders first h.1
    obtain ⟨arguments, harguments⟩ := exists_render (next :: others) h.2 (by simp)
    refine ⟨.more (.term term) arguments, hterm.spells.comma harguments.spells, ?_, ?_⟩
    · rw [Arguments.formulas, Expression.formula, hterm.formula, harguments.formulas]
      rfl
    · rw [Arguments.levels, Expression.levels, hterm.levels, harguments.levels]
      rfl

end

end Grammar

end Calculator
