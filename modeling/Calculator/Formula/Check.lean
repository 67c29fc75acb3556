import Calculator.Defect
import Calculator.Formula
import Std.Data.ExtTreeSet

/-!
# Checking formulas

A check goes through a formula from left to right, each node before what is below it, and
stops at the first defect. On its way it adds the variables it meets to a set of names;
those met before a defect stay in the set.
-/

namespace Calculator

/-- A set of names. -/
abbrev Names := Std.ExtTreeSet String

namespace Formula

mutual

/-- The first defect of a formula, and the names with the variables met before it. -/
def check : Formula → Names → Except Defect Unit × Names
  | .literal _, names => (.ok (), names)
  | .variable name, names => (.ok (), names.insert name)
  | .unary symbol operand, names =>
    match knownSign symbol with
    | .error defect => (.error defect, names)
    | .ok _ => operand.check names
  | .binary left symbol right, names =>
    match knownOperator symbol with
    | .error defect => (.error defect, names)
    | .ok _ =>
      match left.check names with
      | (.error defect, names) => (.error defect, names)
      | (.ok (), names) => right.check names
  | .call name arguments, names =>
    match knownBuiltin name arguments.length with
    | .error defect => (.error defect, names)
    | .ok _ => checkAll arguments names

/-- The first defect in a list of formulas, and the names with the variables met before it. -/
def checkAll : List Formula → Names → Except Defect Unit × Names
  | [], names => (.ok (), names)
  | formula :: formulas, names =>
    match formula.check names with
    | (.error defect, names) => (.error defect, names)
    | (.ok (), names) => checkAll formulas names

end

/-- A formula as it is, if it has no defect. -/
def checked (formula : Formula) : Except Defect Formula :=
  (formula.check ∅).1.map fun () => formula

end Formula

end Calculator
