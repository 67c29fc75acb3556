import Calculator.Operator

/-!
# Formulas

A formula is a tree. Operators are kept as the characters that were written, so that a tree
put together by hand may hold symbols and calls that the language does not know; checking
finds them.

Two formulas are the same when they have the same shape and their literals are equal as
numbers: a literal that is not a number differs from itself, and the two zeros are equal.
-/

namespace Calculator

/-- A formula as a tree. -/
inductive Formula where
  /-- A number. -/
  | literal (value : Float)
  /-- A variable, by its name. -/
  | variable (name : String)
  /-- A sign, by its symbol, and its operand. -/
  | unary (symbol : Char) (operand : Formula)
  /-- A binary operator, by its symbol, between its operands. -/
  | binary (left : Formula) (symbol : Char) (right : Formula)
  /-- A call of a function, by its name. -/
  | call (name : String) (arguments : List Formula)

namespace Formula

mutual

/-- Two formulas have the same shape and equal literals. -/
def same : Formula → Formula → Bool
  | .literal value, .literal value' => value == value'
  | .variable name, .variable name' => name == name'
  | .unary symbol operand, .unary symbol' operand' => symbol == symbol' && same operand operand'
  | .binary left symbol right, .binary left' symbol' right' =>
    same left left' && symbol == symbol' && same right right'
  | .call name arguments, .call name' arguments' =>
    name == name' && sameAll arguments arguments'
  | _, _ => false

/-- Two lists of formulas are the same one by one. -/
def sameAll : List Formula → List Formula → Bool
  | [], [] => true
  | formula :: formulas, formula' :: formulas' =>
    same formula formula' && sameAll formulas formulas'
  | _, _ => false

end

instance : BEq Formula := ⟨same⟩

end Formula

end Calculator
