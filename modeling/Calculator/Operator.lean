/-!
# Signs and operators

A formula knows two signs and four binary operators. Multiplication and division bind more
tightly than addition and subtraction; a symbol that is no operator has a binding strength
below them all. Arithmetic is that of binary64 numbers, so nothing here ever fails.

The main statements say that symbols and operators determine each other.
-/

namespace Calculator

/-- A sign in front of an operand. -/
inductive Sign where
  | plus
  | minus
deriving Repr, DecidableEq

namespace Sign

/-- The character that writes a sign. -/
def symbol : Sign → Char
  | plus => '+'
  | minus => '-'

/-- The sign that a character writes. -/
def ofSymbol? : Char → Option Sign
  | '+' => some plus
  | '-' => some minus
  | _ => none

/-- The signed operand. -/
def apply : Sign → Float → Float
  | plus, operand => operand
  | minus, operand => -operand

/-- Reading a symbol and writing a sign are inverse. -/
theorem ofSymbol?_eq_some_iff {c : Char} {sign : Sign} :
    ofSymbol? c = some sign ↔ sign.symbol = c := by
  constructor
  · intro h
    unfold ofSymbol? at h
    split at h <;> cases h <;> rfl
  · rintro rfl
    cases sign <;> rfl

end Sign

/-- A binary operator. -/
inductive Operator where
  | add
  | subtract
  | multiply
  | divide
deriving Repr, DecidableEq

namespace Operator

/-- The character that writes an operator. -/
def symbol : Operator → Char
  | add => '+'
  | subtract => '-'
  | multiply => '*'
  | divide => '/'

/-- The operator that a character writes. -/
def ofSymbol? : Char → Option Operator
  | '+' => some add
  | '-' => some subtract
  | '*' => some multiply
  | '/' => some divide
  | _ => none

/-- The binding strength of the additive operators, the least there is. -/
def additive : Nat := 1

/-- The binding strength of the multiplicative operators. -/
def multiplicative : Nat := 2

/-- How tightly an operator binds its operands. -/
def precedence : Operator → Nat
  | add | subtract => additive
  | multiply | divide => multiplicative

/-- The result of an operator on its two operands. -/
def apply : Operator → Float → Float → Float
  | add, left, right => left + right
  | subtract, left, right => left - right
  | multiply, left, right => left * right
  | divide, left, right => left / right

/-- The sign that is written like an operator. -/
def sign? : Operator → Option Sign
  | add => some .plus
  | subtract => some .minus
  | multiply | divide => none

/-- Reading a symbol and writing an operator are inverse. -/
theorem ofSymbol?_eq_some_iff {c : Char} {operator : Operator} :
    ofSymbol? c = some operator ↔ operator.symbol = c := by
  constructor
  · intro h
    unfold ofSymbol? at h
    split at h <;> cases h <;> rfl
  · rintro rfl
    cases operator <;> rfl

end Operator

/-- How tightly a symbol binds as a binary operator, zero if it is none. -/
def precedence (symbol : Char) : Nat :=
  match Operator.ofSymbol? symbol with
  | some operator => operator.precedence
  | none => 0

/-- An operator's own symbol has the operator's binding strength. -/
@[simp] theorem precedence_symbol (operator : Operator) :
    precedence operator.symbol = operator.precedence := by
  cases operator <;> rfl

end Calculator
