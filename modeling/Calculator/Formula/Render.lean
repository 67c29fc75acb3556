import Calculator.Formula
import Calculator.Number.General

/-!
# Rendering formulas

A formula is written with just the parentheses that keep its shape. An additive operation
always stands in parentheses, whatever is around it; a multiplicative one gets them as the
operand of a sign and as the right operand of another multiplicative operation. Symbols
that are no operators are treated like additive ones.
-/

namespace Calculator

/-- Literals have six significant digits, and an exponent of two digits or more from the
seventh place before the point and the fifth after it. -/
def literalNotation : Number.GeneralNotation where
  further := 5
  leastPositional := -4
  exponentWidth := 2

/-- A number as formulas and answers write it. -/
def numberText (x : Float) : String :=
  String.ofList (literalNotation.text x)

namespace Formula

/-- A formula is a binary operation that binds more tightly than an additive one. -/
def isMultiplicative : Formula → Bool
  | .binary _ symbol _ => Operator.additive < precedence symbol
  | _ => false

/-- A text in parentheses, if they are needed. -/
def parenthesized (needed : Bool) (text : List Char) : List Char :=
  if needed then '(' :: text ++ [')'] else text

mutual

/-- The characters of a rendered formula. -/
def characters : Formula → List Char
  | .literal value => literalNotation.text value
  | .variable name => name.toList
  | .unary symbol operand =>
    symbol :: parenthesized operand.isMultiplicative operand.characters
  | .binary left symbol right =>
    let tight := decide (Operator.additive < precedence symbol)
    parenthesized (!tight) (left.characters ++ [' ', symbol, ' '] ++
      parenthesized (tight && right.isMultiplicative) right.characters)
  | .call name arguments => name.toList ++ '(' :: listCharacters arguments ++ [')']

/-- The characters of rendered arguments, a comma and a space between each two. -/
def listCharacters : List Formula → List Char
  | [] => []
  | [argument] => argument.characters
  | argument :: next :: others =>
    argument.characters ++ [',', ' '] ++ listCharacters (next :: others)

end

/-- A formula as text. -/
def render (formula : Formula) : String :=
  String.ofList formula.characters

end Formula

end Calculator
