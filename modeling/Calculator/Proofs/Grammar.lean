import Calculator.Formula.Parse
import Mathlib.Data.Nat.Notation

/-!
# The grammar of formulas

A formula is a sum of terms, a term is a product of operands, and an operand is a number, a
variable, a call, a formula in parentheses or a signed operand. Chains of operators are
grouped from the left. A derivation is a tree of this grammar; it has the tokens it derives
and the formula it stands for, in which parentheses leave no node.

The grammar knows no limit of nesting. For a given room a derivation has at most one place
where reading overruns it: the first token of the first operand that no level is left for.
-/

namespace Calculator

/-- The operator that is written like a sign. -/
def Sign.operator : Sign → Operator
  | plus => .add
  | minus => .subtract

/-- A sign written as an operator is read as that sign. -/
@[simp] theorem Sign.sign?_operator (sign : Sign) : sign.operator.sign? = some sign := by
  cases sign <;> rfl

/-- Only the operator written like a sign is read as that sign. -/
theorem Sign.operator_of_sign? {op : Operator} {sign : Sign} (h : op.sign? = some sign) :
    op = sign.operator := by
  cases op <;> cases h <;> rfl

/-- An operator binds as tightly as multiplication if it binds more tightly than addition. -/
theorem Operator.precedence_eq_multiplicative {op : Operator}
    (h : ¬ op.precedence < multiplicative) : op.precedence = multiplicative := by
  cases op <;> simp_all [precedence, additive, multiplicative]

/-- An operator that binds less tightly than multiplication is additive. -/
theorem Operator.precedence_eq_additive {op : Operator}
    (h : op.precedence < multiplicative) : op.precedence = additive := by
  cases op <;> simp_all [precedence, additive, multiplicative]

/-- No operator binds more tightly than the multiplicative ones. -/
theorem Operator.precedence_le_multiplicative (op : Operator) :
    op.precedence ≤ multiplicative := by
  cases op <;> decide

namespace Grammar

mutual

/-- A derivation of an operand. -/
inductive Operand where
  | number (value : Float)
  | identifier (name : String)
  | call (name : String) (arguments : Arguments)
  | group (inner : Expression)
  | signed (sign : Sign) (operand : Operand)

/-- A derivation of a term, a chain of multiplicative operators. -/
inductive Term where
  | operand (only : Operand)
  | operation (left : Term) (op : Operator)
      (tight : op.precedence = Operator.multiplicative) (right : Operand)

/-- A derivation of a whole formula, a chain of additive operators. -/
inductive Expression where
  | term (only : Term)
  | operation (left : Expression) (op : Operator)
      (loose : op.precedence = Operator.additive) (right : Term)

/-- A derivation of the arguments of a call, of which there is at least one. -/
inductive Arguments where
  | last (argument : Expression)
  | more (argument : Expression) (others : Arguments)

end

mutual

/-- The tokens that an operand derives. -/
def Operand.tokens : Operand → List Token
  | .number value => [.number value]
  | .identifier name => [.identifier name]
  | .call name arguments =>
    .identifier name :: .mark .opening :: (arguments.tokens ++ [.mark .closing])
  | .group inner => .mark .opening :: (inner.tokens ++ [.mark .closing])
  | .signed sign operand => .mark (.operator sign.operator) :: operand.tokens

/-- The tokens that a term derives. -/
def Term.tokens : Term → List Token
  | .operand only => only.tokens
  | .operation left op _ right => left.tokens ++ .mark (.operator op) :: right.tokens

/-- The tokens that a whole formula derives. -/
def Expression.tokens : Expression → List Token
  | .term only => only.tokens
  | .operation left op _ right => left.tokens ++ .mark (.operator op) :: right.tokens

/-- The tokens that arguments derive, a comma between each two. -/
def Arguments.tokens : Arguments → List Token
  | .last argument => argument.tokens
  | .more argument others => argument.tokens ++ .mark .comma :: others.tokens

end

mutual

/-- The formula that an operand stands for. -/
def Operand.formula : Operand → Formula
  | .number value => .literal value
  | .identifier name => .variable name
  | .call name arguments => .call name arguments.formulas
  | .group inner => inner.formula
  | .signed sign operand => .unary sign.symbol operand.formula

/-- The formula that a term stands for. -/
def Term.formula : Term → Formula
  | .operand only => only.formula
  | .operation left op _ right => .binary left.formula op.symbol right.formula

/-- The formula that a derivation stands for. -/
def Expression.formula : Expression → Formula
  | .term only => only.formula
  | .operation left op _ right => .binary left.formula op.symbol right.formula

/-- The formulas that arguments stand for, in their order. -/
def Arguments.formulas : Arguments → List Formula
  | .last argument => [argument.formula]
  | .more argument others => argument.formula :: others.formulas

end

/-- The tokens of a stream derive a formula. -/
def Derives (tokens : List Token) (formula : Formula) : Prop :=
  ∃ derivation : Expression, derivation.tokens = tokens ∧ derivation.formula = formula

/-- The operators of a term's own chain. -/
def Term.operators : Term → ℕ
  | .operand _ => 0
  | .operation left _ _ _ => left.operators + 1

/-- The operators that count against what is added to a formula's chain: those of its first
term and the additive ones. -/
def Expression.operators : Expression → ℕ
  | .term only => only.operators
  | .operation left _ _ _ => left.operators + 1

mutual

/-- How many tokens of an operand stand before the first operand without a level left. -/
def Operand.overrun? : Operand → (room : ℕ) → Option ℕ
  | _, 0 => some 0
  | .number _, _ + 1 => none
  | .identifier _, _ + 1 => none
  | .call _ arguments, room + 1 => (arguments.overrun? room).map (· + 2)
  | .group inner, room + 1 => (inner.overrun? room).map (· + 1)
  | .signed _ operand, room + 1 => (operand.overrun? room).map (· + 1)

/-- How many tokens of a term stand before the first operand without a level left. -/
def Term.overrun? : Term → (room : ℕ) → Option ℕ
  | .operand only, room => only.overrun? room
  | .operation left _ _ right, room =>
    (left.overrun? room).or
      ((right.overrun? (room - left.operators - 1)).map (· + (left.tokens.length + 1)))

/-- How many tokens of a formula stand before the first operand without a level left. -/
def Expression.overrun? : Expression → (room : ℕ) → Option ℕ
  | .term only, room => only.overrun? room
  | .operation left _ _ right, room =>
    (left.overrun? room).or
      ((right.overrun? (room - left.operators - 1)).map (· + (left.tokens.length + 1)))

/-- How many tokens of arguments stand before the first operand without a level left. -/
def Arguments.overrun? : Arguments → (room : ℕ) → Option ℕ
  | .last argument, room => argument.overrun? room
  | .more argument others, room =>
    (argument.overrun? room).or
      ((others.overrun? room).map (· + (argument.tokens.length + 1)))

end

mutual

/-- The levels of nesting that an operand takes up. -/
def Operand.levels : Operand → ℕ
  | .number _ => 1
  | .identifier _ => 1
  | .call _ arguments => arguments.levels + 1
  | .group inner => inner.levels + 1
  | .signed _ operand => operand.levels + 1

/-- The levels of nesting that a term takes up, each operator's after it for its operand. -/
def Term.levels : Term → ℕ
  | .operand only => only.levels
  | .operation left _ _ right => max left.levels (left.operators + 1 + right.levels)

/-- The levels of nesting that a formula takes up, each operator's after it for its term. -/
def Expression.levels : Expression → ℕ
  | .term only => only.levels
  | .operation left _ _ right => max left.levels (left.operators + 1 + right.levels)

/-- The levels of nesting that the deepest of the arguments takes up. -/
def Arguments.levels : Arguments → ℕ
  | .last argument => argument.levels
  | .more argument others => max argument.levels others.levels

end

/-- An operand without a level left overruns at its first token. -/
@[simp] theorem Operand.overrun?_zero (operand : Operand) : operand.overrun? 0 = some 0 := by
  cases operand <;> rfl

/-- An operand takes up a level of its own. -/
theorem Operand.levels_pos (operand : Operand) : 0 < operand.levels := by
  cases operand <;> simp [Operand.levels]

/-- A term takes up more levels than its chain has operators. -/
theorem Term.operators_lt_levels (term : Term) : term.operators < term.levels := by
  cases term with
  | operand only => exact only.levels_pos
  | operation left op tight right =>
    have hright := right.levels_pos
    simp only [Term.operators, Term.levels]
    omega

/-- A formula takes up more levels than its chain has operators. -/
theorem Expression.operators_lt_levels (expression : Expression) :
    expression.operators < expression.levels := by
  cases expression with
  | term only => exact only.operators_lt_levels
  | operation left op loose right =>
    have hright := right.operators_lt_levels
    simp only [Expression.operators, Expression.levels]
    omega

end Grammar

end Calculator
