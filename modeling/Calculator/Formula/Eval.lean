import Calculator.Defect
import Calculator.Environment
import Calculator.Formula

/-!
# Evaluating formulas

Evaluation follows the arithmetic of binary64 numbers, so its result may be infinite or not
a number. It stops only at a defect of the tree, which it meets at the node itself, before
the operands or arguments, and these are evaluated from left to right.

The values of a call's arguments go into the slots of the call, which start out as zero, and
the builtin is given as many slots as the call has arguments.

Several environments may be evaluated at the same time. What is relied on is that each of them
is evaluated on its own, with nothing shared that an evaluation changes, and that the values
come in the order of the environments, whichever is finished first. A defect stands in the
formula and is met in every environment alike, so that it does not matter either which
evaluation stops first.
-/

namespace Calculator.Formula

mutual

/-- The value of a formula in an environment, or the defect met. -/
def eval (environment : Environment) : Formula → Except Defect Float
  | .literal value => .ok value
  | .variable name => .ok (environment.value name)
  | .unary symbol operand => do
    let sign ← knownSign symbol
    let operand ← operand.eval environment
    return sign.apply operand
  | .binary left symbol right => do
    let operator ← knownOperator symbol
    let left ← left.eval environment
    let right ← right.eval environment
    return operator.apply left right
  | .call name arguments => do
    let builtin ← knownBuiltin name arguments.length
    let slots ← fillSlots environment arguments (List.replicate slotCount 0.0)
    return builtin.apply (slots.take arguments.length)

/-- The slots with the values of arguments, one after the other while there are slots. -/
def fillSlots (environment : Environment) :
    List Formula → List Float → Except Defect (List Float)
  | argument :: arguments, _ :: slots => do
    let value ← argument.eval environment
    let others ← fillSlots environment arguments slots
    return value :: others
  | [], slots => .ok slots
  | _ :: _, [] => .ok []

end

/-- The values of a formula in several environments, each on its own and in their order, or the
defect met in all of them. -/
def evalAll (formula : Formula) (environments : List Environment) :
    Except Defect (List Float) :=
  environments.mapM (formula.eval ·)

end Calculator.Formula
