import Calculator.Proofs.Grammar

/-!
# Names that are called

Among tokens a name is called exactly if a parenthesis opens right after it. In a formula it
is called where it stands for a function. A derivation keeps the two apart in the same way,
since no other token that may follow a name in it is an opening parenthesis.
-/

namespace Calculator

/-- The names among tokens in their order, and whether each is called. -/
def Token.names : List Token → List (String × Bool)
  | [] => []
  | .identifier name :: rest => (name, rest.head? = some (.mark .opening)) :: names rest
  | .number _ :: rest => names rest
  | .mark _ :: rest => names rest

namespace Formula

mutual

/-- The names in a formula from left to right, and whether each is called. -/
def names : Formula → List (String × Bool)
  | .literal _ => []
  | .variable name => [(name, false)]
  | .unary _ operand => operand.names
  | .binary left _ right => left.names ++ right.names
  | .call name arguments => (name, true) :: namesAll arguments

/-- The names in a list of formulas from left to right, and whether each is called. -/
def namesAll : List Formula → List (String × Bool)
  | [] => []
  | formula :: formulas => formula.names ++ namesAll formulas

end

end Formula

/-- What follows a token other than an opening parenthesis does not change what is called
before it. -/
theorem Token.names_append_cons (front : List Token) (token : Token) (back : List Token)
    (h : token ≠ .mark .opening) :
    names (front ++ token :: back) = names front ++ names (token :: back) := by
  induction front with
  | nil => rfl
  | cons first front ih =>
    cases first with
    | number value => exact ih
    | mark written => exact ih
    | identifier name =>
      have hhead : (front ++ token :: back).head? = some (.mark .opening) ↔
          front.head? = some (.mark .opening) := by
        cases front <;> simp [h]
      simp only [List.cons_append, names, ih, hhead]

namespace Grammar

mutual

/-- An operand's tokens and its formula have the same names, called in the same places. -/
theorem Operand.names_tokens (operand : Operand) :
    Token.names operand.tokens = operand.formula.names := by
  cases operand with
  | number value => rfl
  | identifier name => rfl
  | call name arguments =>
    have hinside := Token.names_append_cons arguments.tokens (.mark .closing) []
      (by decide)
    simp only [Operand.tokens, Token.names, Operand.formula, Formula.names, List.head?_cons,
      decide_true, hinside, arguments.names_tokens, List.append_nil]
  | group inner =>
    have hinside := Token.names_append_cons inner.tokens (.mark .closing) [] (by decide)
    simp only [Operand.tokens, Token.names, Operand.formula, hinside, inner.names_tokens,
      List.append_nil]
  | signed sign operand =>
    simp only [Operand.tokens, Token.names, Operand.formula, Formula.names,
      operand.names_tokens]

/-- A term's tokens and its formula have the same names, called in the same places. -/
theorem Term.names_tokens (term : Term) : Token.names term.tokens = term.formula.names := by
  cases term with
  | operand only => exact only.names_tokens
  | operation left op tight right =>
    simp only [Term.tokens, Term.formula, Formula.names, Token.names,
      Token.names_append_cons left.tokens (.mark (.operator op)) right.tokens (by simp),
      left.names_tokens, right.names_tokens]

/-- A derivation's tokens and its formula have the same names, called in the same places. -/
theorem Expression.names_tokens (expression : Expression) :
    Token.names expression.tokens = expression.formula.names := by
  cases expression with
  | term only => exact only.names_tokens
  | operation left op loose right =>
    simp only [Expression.tokens, Expression.formula, Formula.names, Token.names,
      Token.names_append_cons left.tokens (.mark (.operator op)) right.tokens (by simp),
      left.names_tokens, right.names_tokens]

/-- The tokens of arguments and their formulas have the same names, called in the same
places. -/
theorem Arguments.names_tokens (arguments : Arguments) :
    Token.names arguments.tokens = Formula.namesAll arguments.formulas := by
  cases arguments with
  | last argument =>
    simp only [Arguments.tokens, Arguments.formulas, Formula.namesAll, argument.names_tokens,
      List.append_nil]
  | more argument others =>
    simp only [Arguments.tokens, Arguments.formulas, Formula.namesAll, Token.names,
      Token.names_append_cons argument.tokens (.mark .comma) others.tokens (by decide),
      argument.names_tokens, others.names_tokens]

end

end Grammar

end Calculator
