import Calculator.Formula.Eval
import Calculator.Proofs.Literals

/-!
# Literals read back in formulas

A formula can be written if its symbols are known, its names are identifiers, its calls have
arguments and its literals are finite. Writing it rounds every literal and turns a literal with
a minus sign into a signed one. Where no literal is changed by rounding, the formula computes
what it did.
-/

namespace Calculator

/-- The number that bits denote is finite. -/
def Number.Binary64.isFinite : Number.Binary64 → Bool
  | .finite _ _ => true
  | _ => false

/-- Bits that denote a finite number denote a sign and units. -/
theorem Number.Binary64.exists_of_isFinite {number : Number.Binary64}
    (h : number.isFinite = true) : ∃ negative units, number = .finite negative units := by
  cases number with
  | finite negative units => exact ⟨negative, units, rfl⟩
  | nan => cases h
  | infinite negative => cases h

/-- The number that bits denote has a minus sign. -/
def Number.Binary64.isNegative : Number.Binary64 → Bool
  | .finite negative _ => negative
  | .infinite negative => negative
  | .nan => false

namespace Formula

mutual

/-- A formula can be written: its symbols are known, its names are identifiers, its calls have
arguments and its literals are finite. -/
def isWritable : Formula → Bool
  | .literal value => (Number.Binary64.ofFloat value).isFinite
  | .variable name => isIdentifier name.toList
  | .unary symbol operand => (Sign.ofSymbol? symbol).isSome && operand.isWritable
  | .binary left symbol right =>
    (Operator.ofSymbol? symbol).isSome && left.isWritable && right.isWritable
  | .call name arguments =>
    isIdentifier name.toList && !arguments.isEmpty && areWritable arguments

/-- All formulas of a list can be written. -/
def areWritable : List Formula → Bool
  | [] => true
  | formula :: formulas => formula.isWritable && areWritable formulas

end

mutual

/-- The formula with every literal replaced by what its text denotes, a literal with a minus
sign by its signed absolute value. -/
def reread : Formula → Formula
  | .literal value =>
    if (Number.Binary64.ofFloat value).isNegative then
      .unary '-' (.literal (rereadNumber value.abs))
    else .literal (rereadNumber value)
  | .variable name => .variable name
  | .unary symbol operand => .unary symbol operand.reread
  | .binary left symbol right => .binary left.reread symbol right.reread
  | .call name arguments => .call name (rereadAll arguments)

/-- The formulas with their literals replaced. -/
def rereadAll : List Formula → List Formula
  | [] => []
  | formula :: formulas => formula.reread :: rereadAll formulas

end

mutual

/-- The literals of a formula from left to right. -/
def literals : Formula → List Float
  | .literal value => [value]
  | .variable _ => []
  | .unary _ operand => operand.literals
  | .binary left _ right => left.literals ++ right.literals
  | .call _ arguments => literalsAll arguments

/-- The literals of formulas from left to right. -/
def literalsAll : List Formula → List Float
  | [] => []
  | formula :: formulas => formula.literals ++ literalsAll formulas

end

/-- The text of a number's absolute value denotes this absolute value. -/
def IsExact (x : Float) : Prop :=
  rereadNumber x.abs = x.abs

/-- As many formulas are read back as there were. -/
@[simp] theorem length_rereadAll (formulas : List Formula) :
    (rereadAll formulas).length = formulas.length := by
  induction formulas with
  | nil => rfl
  | cons formula formulas ih => rw [rereadAll, List.length_cons, ih, List.length_cons]

/-- A literal with a minus sign is read back as a signed one. -/
theorem reread_literal_of_finite_true {value : Float} {units : ℕ}
    (h : Number.Binary64.ofFloat value = .finite true units) :
    reread (.literal value) = .unary '-' (.literal (rereadNumber value.abs)) := by
  simp [reread, h, Number.Binary64.isNegative]

/-- A literal without a minus sign is read back as one. -/
theorem reread_literal_of_finite_false {value : Float} {units : ℕ}
    (h : Number.Binary64.ofFloat value = .finite false units) :
    reread (.literal value) = .literal (rereadNumber value) := by
  simp [reread, h, Number.Binary64.isNegative]

/-- A finite literal whose text is exact has its value when it is read back. -/
theorem eval_reread_literal {value : Float}
    (hfinite : (Number.Binary64.ofFloat value).isFinite = true) (hexact : IsExact value)
    (environment : Environment) :
    (reread (.literal value)).eval environment = .ok value := by
  obtain ⟨negative, units, hvalue⟩ := Number.Binary64.exists_of_isFinite hfinite
  unfold IsExact at hexact
  cases negative with
  | true =>
    rw [reread_literal_of_finite_true hvalue, hexact]
    exact congrArg Except.ok (Number.Binary64.neg_abs_of_finite hvalue)
  | false =>
    rw [Number.Binary64.abs_of_finite hvalue] at hexact
    rw [reread_literal_of_finite_false hvalue, hexact]
    rfl

mutual

/-- A formula that can be written and has only exact literals computes the same when it is read
back. -/
theorem eval_reread (formula : Formula) (hwritable : formula.isWritable = true)
    (hexact : ∀ x ∈ formula.literals, IsExact x) (environment : Environment) :
    formula.reread.eval environment = formula.eval environment := by
  cases formula with
  | literal value => exact eval_reread_literal hwritable (hexact value (by simp [literals])) _
  | «variable» name => rfl
  | unary symbol operand =>
    simp only [isWritable, Bool.and_eq_true] at hwritable
    rw [reread, eval, eval, eval_reread operand hwritable.2 hexact environment]
  | binary left symbol right =>
    simp only [isWritable, Bool.and_eq_true] at hwritable
    simp only [literals, List.mem_append] at hexact
    rw [reread, eval, eval,
      eval_reread left hwritable.1.2 (fun x hx => hexact x (.inl hx)) environment,
      eval_reread right hwritable.2 (fun x hx => hexact x (.inr hx)) environment]
  | call name arguments =>
    simp only [isWritable, Bool.and_eq_true] at hwritable
    rw [reread, eval, eval, length_rereadAll]
    simp only [fillSlots_rereadAll arguments hwritable.2 hexact environment]

/-- Formulas that can be written and have only exact literals fill the same slots when they are
read back. -/
theorem fillSlots_rereadAll (formulas : List Formula) (hwritable : areWritable formulas = true)
    (hexact : ∀ x ∈ literalsAll formulas, IsExact x) (environment : Environment)
    (slots : List Float) :
    fillSlots environment (rereadAll formulas) slots = fillSlots environment formulas slots := by
  cases formulas with
  | nil => rfl
  | cons formula formulas =>
    simp only [areWritable, Bool.and_eq_true] at hwritable
    simp only [literalsAll, List.mem_append] at hexact
    cases slots with
    | nil => rfl
    | cons slot slots =>
      rw [rereadAll, fillSlots, fillSlots,
        eval_reread formula hwritable.1 (fun x hx => hexact x (.inl hx)) environment,
        fillSlots_rereadAll formulas hwritable.2 (fun x hx => hexact x (.inr hx)) environment slots]

end

end Formula

end Calculator
