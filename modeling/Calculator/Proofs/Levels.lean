import Calculator.Proofs.Grammar

/-!
# Levels of nesting

A derivation overruns a room exactly if it takes up more levels than the room has. Every
level but the first comes from a token of its own: a sign, an operator or an opening
parenthesis. So a stream with few of these never needs many levels.
-/

namespace Calculator

/-- The token is a sign, an operator or an opening parenthesis. -/
def Token.deepens : Token → Bool
  | .mark (.operator _) => true
  | .mark .opening => true
  | _ => false

namespace Grammar

mutual

/-- An operand overruns every room with fewer levels than it takes up, and no other. -/
theorem Operand.overrun?_eq_none_iff (operand : Operand) (room : ℕ) :
    operand.overrun? room = none ↔ operand.levels ≤ room := by
  cases room with
  | zero =>
    have hpos := operand.levels_pos
    simp only [Operand.overrun?_zero, reduceCtorEq, false_iff]
    omega
  | succ room =>
    cases operand with
    | number value => simp [Operand.overrun?, Operand.levels]
    | identifier name => simp [Operand.overrun?, Operand.levels]
    | call name arguments =>
      simp [Operand.overrun?, Operand.levels, arguments.overrun?_eq_none_iff room]
    | group inner =>
      simp [Operand.overrun?, Operand.levels, inner.overrun?_eq_none_iff room]
    | signed sign operand =>
      simp [Operand.overrun?, Operand.levels, operand.overrun?_eq_none_iff room]

/-- A term overruns every room with fewer levels than it takes up, and no other. -/
theorem Term.overrun?_eq_none_iff (term : Term) (room : ℕ) :
    term.overrun? room = none ↔ term.levels ≤ room := by
  cases term with
  | operand only => exact only.overrun?_eq_none_iff room
  | operation left op tight right =>
    have hpos := right.levels_pos
    simp only [Term.overrun?, Term.levels, Option.or_eq_none_iff, Option.map_eq_none_iff,
      left.overrun?_eq_none_iff room, right.overrun?_eq_none_iff (room - left.operators - 1)]
    omega

/-- A formula overruns every room with fewer levels than it takes up, and no other. -/
theorem Expression.overrun?_eq_none_iff (expression : Expression) (room : ℕ) :
    expression.overrun? room = none ↔ expression.levels ≤ room := by
  cases expression with
  | term only => exact only.overrun?_eq_none_iff room
  | operation left op loose right =>
    have hpos := right.operators_lt_levels
    simp only [Expression.overrun?, Expression.levels, Option.or_eq_none_iff,
      Option.map_eq_none_iff, left.overrun?_eq_none_iff room,
      right.overrun?_eq_none_iff (room - left.operators - 1)]
    omega

/-- Arguments overrun every room with fewer levels than they take up, and no other. -/
theorem Arguments.overrun?_eq_none_iff (arguments : Arguments) (room : ℕ) :
    arguments.overrun? room = none ↔ arguments.levels ≤ room := by
  cases arguments with
  | last argument => exact argument.overrun?_eq_none_iff room
  | more argument others =>
    simp only [Arguments.overrun?, Arguments.levels, Option.or_eq_none_iff,
      Option.map_eq_none_iff, argument.overrun?_eq_none_iff room,
      others.overrun?_eq_none_iff room]
    omega

end

/-- The operators of a term's chain are among its tokens. -/
theorem Term.operators_le_countP (term : Term) :
    term.operators ≤ term.tokens.countP Token.deepens := by
  cases term with
  | operand only => exact Nat.zero_le _
  | operation left op tight right =>
    have hleft := left.operators_le_countP
    simp only [Term.operators, Term.tokens, List.countP_append, List.countP_cons,
      Token.deepens, if_true]
    omega

/-- The operators that count in a formula's chain are among its tokens. -/
theorem Expression.operators_le_countP (expression : Expression) :
    expression.operators ≤ expression.tokens.countP Token.deepens := by
  cases expression with
  | term only => exact only.operators_le_countP
  | operation left op loose right =>
    have hleft := left.operators_le_countP
    simp only [Expression.operators, Expression.tokens, List.countP_append, List.countP_cons,
      Token.deepens, if_true]
    omega

mutual

/-- Each level of an operand but one comes from a token that deepens. -/
theorem Operand.levels_le_countP (operand : Operand) :
    operand.levels ≤ operand.tokens.countP Token.deepens + 1 := by
  cases operand with
  | number value => exact Nat.le_add_left 1 _
  | identifier name => exact Nat.le_add_left 1 _
  | call name arguments =>
    have hinner := arguments.levels_le_countP
    simp only [Operand.levels, Operand.tokens, List.countP_append, List.countP_cons,
      Token.deepens, if_true]
    omega
  | group inner =>
    have hinner := inner.levels_le_countP
    simp only [Operand.levels, Operand.tokens, List.countP_append, List.countP_cons,
      Token.deepens, if_true]
    omega
  | signed sign operand =>
    have hinner := operand.levels_le_countP
    simp only [Operand.levels, Operand.tokens, List.countP_cons, Token.deepens, if_true]
    omega

/-- Each level of a term but one comes from a token that deepens. -/
theorem Term.levels_le_countP (term : Term) :
    term.levels ≤ term.tokens.countP Token.deepens + 1 := by
  cases term with
  | operand only => exact only.levels_le_countP
  | operation left op tight right =>
    have hleft := left.levels_le_countP
    have hright := right.levels_le_countP
    have hchain := left.operators_le_countP
    simp only [Term.levels, Term.tokens, List.countP_append, List.countP_cons, Token.deepens,
      if_true]
    omega

/-- Each level of a formula but one comes from a token that deepens. -/
theorem Expression.levels_le_countP (expression : Expression) :
    expression.levels ≤ expression.tokens.countP Token.deepens + 1 := by
  cases expression with
  | term only => exact only.levels_le_countP
  | operation left op loose right =>
    have hleft := left.levels_le_countP
    have hright := right.levels_le_countP
    have hchain := left.operators_le_countP
    simp only [Expression.levels, Expression.tokens, List.countP_append, List.countP_cons,
      Token.deepens, if_true]
    omega

/-- Each level of arguments but one comes from a token that deepens. -/
theorem Arguments.levels_le_countP (arguments : Arguments) :
    arguments.levels ≤ arguments.tokens.countP Token.deepens + 1 := by
  cases arguments with
  | last argument => exact argument.levels_le_countP
  | more argument others =>
    have hfirst := argument.levels_le_countP
    have hothers := others.levels_le_countP
    simp only [Arguments.levels, Arguments.tokens, List.countP_append, List.countP_cons]
    omega

end

end Grammar

end Calculator
