import Calculator.Formula.Check
import Calculator.Formula.Eval
import Calculator.Formula.Parse

/-!
# Evaluating texts

A text is parsed, checked and evaluated. The check stands before the evaluation so that a
defect is reported as one; a fault is what would be left if evaluation met a defect that
the check has not.
-/

namespace Calculator

/-- Why a text has no value. -/
inductive Error where
  /-- The text is not a formula. -/
  | parse (error : ParseError)
  /-- The formula has a defect. -/
  | check (defect : Defect)
  /-- Evaluation stopped at a defect. -/
  | fault (defect : Defect)
deriving DecidableEq

/-- What is wrong. -/
def Error.message : Error → String
  | parse error => error.message
  | check defect => defect.message
  | fault defect => defect.faultMessage

/-- The formula that a text writes, if it has no defect. -/
def compile (text : String) : Except Error Formula := do
  let formula ← (Formula.parse text).mapError .parse
  formula.checked.mapError .check

/-- The value of a text in an environment. -/
def evaluate (text : String) (environment : Environment) : Except Error Float := do
  let formula ← compile text
  (formula.eval environment).mapError .fault

end Calculator
