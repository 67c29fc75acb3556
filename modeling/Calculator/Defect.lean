import Calculator.Builtin
import Calculator.Operator
import Calculator.Text.Quoted

/-!
# Defects

A formula's tree has a defect where a symbol is no sign or no operator, a name is no
builtin, or a call has the wrong number of arguments. A check reports a defect; evaluation
stops with a fault where it comes upon one.
-/

namespace Calculator

/-- What the language does not know about a node of a formula. -/
inductive Defect where
  | unknownSign (symbol : Char)
  | unknownOperator (symbol : Char)
  | unknownFunction (name : String)
  | wrongArity (name : String) (got want : Nat)
deriving Repr, DecidableEq

namespace Defect

/-- The defect as a check reports it. -/
def message : Defect → String
  | unknownSign symbol => "unexpected unary op " ++ Text.quotedChar symbol
  | unknownOperator symbol => "unexpected binary op " ++ Text.quotedChar symbol
  | unknownFunction name => "unknown function " ++ Text.quotedString name
  | wrongArity name got want => s!"call to {name} has {got} args, want {want}"

/-- The defect as the fault that stops an evaluation. -/
def faultMessage : Defect → String
  | unknownSign symbol => "unsupported unary operator: " ++ Text.quotedChar symbol
  | unknownOperator symbol => "unsupported binary operator: " ++ Text.quotedChar symbol
  | unknownFunction name => "unsupported function call: " ++ Text.quotedString name
  | wrongArity name got want => s!"call to {name} has {got} args, want {want}"

end Defect

/-- The sign that a symbol writes, or the defect of a node with that symbol. -/
def knownSign (symbol : Char) : Except Defect Sign :=
  match Sign.ofSymbol? symbol with
  | some sign => .ok sign
  | none => .error (.unknownSign symbol)

/-- The operator that a symbol writes, or the defect of a node with that symbol. -/
def knownOperator (symbol : Char) : Except Defect Operator :=
  match Operator.ofSymbol? symbol with
  | some operator => .ok operator
  | none => .error (.unknownOperator symbol)

/-- The builtin called by a name with a number of arguments, or the defect of such a call. -/
def knownBuiltin (name : String) (count : Nat) : Except Defect Builtin :=
  match Builtin.ofName? name with
  | none => .error (.unknownFunction name)
  | some builtin =>
    if count = builtin.arity then .ok builtin
    else .error (.wrongArity name count builtin.arity)

/-- A call has no defect exactly if it gives a builtin as many arguments as this takes. -/
theorem knownBuiltin_eq_ok_iff {name : String} {count : Nat} {builtin : Builtin} :
    knownBuiltin name count = .ok builtin ↔
      Builtin.ofName? name = some builtin ∧ count = builtin.arity := by
  unfold knownBuiltin
  split
  · simp_all
  · split <;> simp_all
    rintro rfl
    assumption

end Calculator
