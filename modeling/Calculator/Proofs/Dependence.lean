import Calculator.Proofs.Faults
import Calculator.Proofs.Fields

/-!
# What evaluation depends on

A check collects the variables that an evaluation looks up. Environments that give these
variables the same values, bit for bit, are therefore interchangeable, and it makes no
difference whether a variable is zero or missing. Evaluation and check stop at the same defect,
so the names met before a defect are enough for a formula that has one.
-/

namespace Calculator

/-- Two environments give the same value, bit for bit, to every name of a set. -/
def Environment.AgreeOn (names : Names) (first second : Environment) : Prop :=
  ∀ name ∈ names, (first.value name).toBits = (second.value name).toBits

namespace Environment

/-- Environments that agree on names agree on some of them. -/
theorem AgreeOn.mono {names fewer : Names} {first second : Environment}
    (h : AgreeOn names first second) (hfewer : ∀ name ∈ fewer, name ∈ names) :
    AgreeOn fewer first second :=
  fun name hname => h name (hfewer name hname)

/-- A variable that is not among the names may be set. -/
theorem agreeOn_insert {names : Names} {name : String} (h : name ∉ names)
    (environment : Environment) (value : Float) :
    AgreeOn names (environment.insert name value) environment := by
  intro other hother
  have hne : name ≠ other := fun heq => h (heq ▸ hother)
  rw [value_insert, if_neg hne]

/-- A variable that is not among the names may be removed. -/
theorem agreeOn_erase {names : Names} {name : String} (h : name ∉ names)
    (environment : Environment) : AgreeOn names (environment.erase name) environment := by
  intro other hother
  have hne : name ≠ other := fun heq => h (heq ▸ hother)
  rw [value_erase, if_neg hne]

/-- A variable that is zero may be removed, whatever the names are. -/
theorem agreeOn_erase_of_zero {environment : Environment} {name : String}
    (h : (environment.value name).toBits = (0.0 : Float).toBits) (names : Names) :
    AgreeOn names (environment.erase name) environment := by
  intro other _
  rw [value_erase]
  by_cases heq : name = other
  · rw [if_pos heq, ← heq, h]
  · rw [if_neg heq]

end Environment

namespace Formula

open Environment

/-- A check, and another one from the names it has met if it has found no defect. -/
def thenCheck (checked : Except Defect Unit × Names)
    (next : Names → Except Defect Unit × Names) : Except Defect Unit × Names :=
  match checked with
  | (.error defect, names) => (.error defect, names)
  | (.ok (), names) => next names

/-- An operation is checked like its left operand and then its right one. -/
theorem check_binary {symbol : Char} {operator : Operator}
    (h : knownOperator symbol = .ok operator) (left right : Formula) (names : Names) :
    (binary left symbol right).check names = thenCheck (left.check names) right.check := by
  rw [check, h]
  rfl

/-- Formulas are checked like the first of them and then the others. -/
theorem checkAll_cons (formula : Formula) (formulas : List Formula) (names : Names) :
    checkAll (formula :: formulas) names =
      thenCheck (formula.check names) (checkAll formulas) := by
  rw [checkAll]
  rfl

/-- Without a defect in the first check the second one goes on with its names. -/
theorem thenCheck_of_ok {checked : Except Defect Unit × Names} (h : checked.1 = .ok ())
    (next : Names → Except Defect Unit × Names) : thenCheck checked next = next checked.2 := by
  obtain ⟨outcome, names⟩ := checked
  cases h
  rfl

/-- A name that the first check has met is kept if the second one keeps names. -/
theorem mem_thenCheck {checked : Except Defect Unit × Names}
    {next : Names → Except Defect Unit × Names} {name : String} (h : name ∈ checked.2)
    (hnext : ∀ names, name ∈ names → name ∈ (next names).2) :
    name ∈ (thenCheck checked next).2 := by
  obtain ⟨_ | _, names⟩ := checked
  · exact h
  · exact hnext names h

mutual

/-- A check removes no name. -/
theorem mem_check_of_mem (formula : Formula) (names : Names) {name : String}
    (h : name ∈ names) : name ∈ (formula.check names).2 := by
  cases formula with
  | literal value => exact h
  | «variable» other =>
    rw [check, Std.ExtTreeSet.mem_insert]
    exact .inr h
  | unary symbol operand =>
    have hoperand := operand.mem_check_of_mem names h
    rw [check]
    cases knownSign symbol with
    | error defect => exact h
    | ok sign => exact hoperand
  | binary left symbol right =>
    cases hknown : knownOperator symbol with
    | error defect =>
      rw [check, hknown]
      exact h
    | ok operator =>
      rw [check_binary hknown]
      exact mem_thenCheck (left.mem_check_of_mem names h)
        fun seen hseen => right.mem_check_of_mem seen hseen
  | call function arguments =>
    have harguments := mem_checkAll_of_mem arguments names h
    rw [check]
    cases knownBuiltin function arguments.length with
    | error defect => exact h
    | ok builtin => exact harguments

/-- A check of several formulas removes no name. -/
theorem mem_checkAll_of_mem (formulas : List Formula) (names : Names) {name : String}
    (h : name ∈ names) : name ∈ (checkAll formulas names).2 := by
  cases formulas with
  | nil => exact h
  | cons formula formulas =>
    rw [checkAll_cons]
    exact mem_thenCheck (formula.mem_check_of_mem names h)
      fun seen hseen => mem_checkAll_of_mem formulas seen hseen

end

/-- A check of a formula that has a value in some environment finds no defect. -/
theorem check_of_eval {formula : Formula} {environment : Environment} {value : Float}
    (h : formula.eval environment = .ok value) (names : Names) :
    (formula.check names).1 = .ok () := by
  rw [← formula.map_eval environment names, h]
  rfl

mutual

/-- Environments that agree on the names met in a check give the formula the same value, or the
same defect. -/
theorem eval_of_agreeOn (formula : Formula) (names : Names) {first second : Environment}
    (h : AgreeOn (formula.check names).2 first second) :
    formula.eval first = formula.eval second := by
  cases formula with
  | literal value => rfl
  | «variable» name =>
    have hname : name ∈ (check (.variable name) names).2 := by
      rw [check, Std.ExtTreeSet.mem_insert]
      exact .inl (Std.ReflCmp.compare_self)
    rw [eval, eval, Number.Binary64.eq_of_toBits_eq (h name hname)]
  | unary symbol operand =>
    rw [check] at h
    rw [eval, eval]
    cases hknown : knownSign symbol with
    | error defect => rfl
    | ok sign =>
      rw [hknown] at h
      rw [operand.eval_of_agreeOn names h]
  | binary left symbol right =>
    rw [eval, eval]
    cases hknown : knownOperator symbol with
    | error defect => rfl
    | ok operator =>
      rw [check_binary hknown] at h
      have hleft := left.eval_of_agreeOn names
        (h.mono fun name hname => mem_thenCheck hname fun seen => right.mem_check_of_mem seen)
      rw [hleft]
      cases hvalue : left.eval second with
      | error defect => rfl
      | ok value =>
        rw [thenCheck_of_ok (check_of_eval hvalue names)] at h
        rw [right.eval_of_agreeOn (left.check names).2 h]
  | call name arguments =>
    rw [check] at h
    rw [eval, eval]
    cases hknown : knownBuiltin name arguments.length with
    | error defect => rfl
    | ok builtin =>
      rw [hknown] at h
      rw [fillSlots_of_agreeOn arguments names h]

/-- Environments that agree on the names met in a check of arguments fill slots with the same
values, or come upon the same defect. -/
theorem fillSlots_of_agreeOn (arguments : List Formula) (names : Names)
    {first second : Environment} (h : AgreeOn (checkAll arguments names).2 first second)
    (slots : List Float) :
    fillSlots first arguments slots = fillSlots second arguments slots := by
  cases arguments with
  | nil => rw [fillSlots, fillSlots]
  | cons argument arguments =>
    cases slots with
    | nil => rw [fillSlots, fillSlots]
    | cons slot slots =>
      rw [checkAll_cons] at h
      have hargument := argument.eval_of_agreeOn names
        (h.mono fun name hname => mem_thenCheck hname fun seen =>
          mem_checkAll_of_mem arguments seen)
      rw [fillSlots, fillSlots, hargument]
      cases hvalue : argument.eval second with
      | error defect => rfl
      | ok value =>
        rw [thenCheck_of_ok (check_of_eval hvalue names)] at h
        rw [fillSlots_of_agreeOn arguments (argument.check names).2 h slots]

end

/-- The variables that a check collects are all that evaluation depends on. An accepted formula
has one and the same value in all environments that agree on these variables. So its value does
not change where any other variable is set or removed, nor where a variable that is zero is
removed. -/
theorem eval_depends_on_check {formula : Formula} {names : Names}
    (h : formula.check ∅ = (.ok (), names)) :
    (∀ first second, Environment.AgreeOn names first second →
      ∃ value, formula.eval first = .ok value ∧ formula.eval second = .ok value) ∧
    (∀ environment name, name ∉ names →
      (∀ value, formula.eval (environment.insert name value) = formula.eval environment) ∧
      formula.eval (environment.erase name) = formula.eval environment) ∧
    (∀ environment name, (environment.value name).toBits = (0.0 : Float).toBits →
      formula.eval (environment.erase name) = formula.eval environment) := by
  have hsame (first second : Environment) (hagree : AgreeOn names first second) :
      formula.eval first = formula.eval second :=
    formula.eval_of_agreeOn ∅ (by rw [h]; exact hagree)
  refine ⟨fun first second hagree => ?_, fun environment name hname => ⟨fun value => ?_, ?_⟩,
    fun environment name hzero => ?_⟩
  · have haccepted : (formula.check ∅).1 = .ok () := by rw [h]
    obtain ⟨value, hvalue⟩ := exists_eval_of_check haccepted first
    exact ⟨value, hvalue, hsame first second hagree ▸ hvalue⟩
  · exact hsame _ _ (agreeOn_insert hname environment value)
  · exact hsame _ _ (agreeOn_erase hname environment)
  · exact hsame _ _ (agreeOn_erase_of_zero hzero names)

/-- A variable may have the name of a function, and only the variable is looked up. -/
theorem eval_depends_on_check_sin :
    (call "sin" [.variable "sin"]).check ∅ = (.ok (), (∅ : Names).insert "sin") ∧
      ∃ value, (call "sin" [.variable "sin"]).eval ((∅ : Environment).insert "sin" 0.5) =
          .ok value ∧
        (call "sin" [.variable "sin"]).eval
          (((∅ : Environment).insert "sin" 0.5).insert "x" 2.0) = .ok value := by
  have hknown : knownBuiltin "sin" 1 = .ok .sin := knownBuiltin_eq_ok_iff.2 ⟨rfl, rfl⟩
  have hcheck : (call "sin" [.variable "sin"]).check ∅ = (.ok (), (∅ : Names).insert "sin") := by
    rw [check, List.length_singleton, hknown]
    rfl
  have hother : "x" ∉ (∅ : Names).insert "sin" := by decide +kernel
  obtain ⟨hsame, _, _⟩ := eval_depends_on_check hcheck
  refine ⟨hcheck, ?_⟩
  obtain ⟨value, hset, hunset⟩ := hsame _ _ (Environment.agreeOn_insert hother
    ((∅ : Environment).insert "sin" 0.5) 2.0)
  exact ⟨value, hunset, hset⟩

end Formula

end Calculator
