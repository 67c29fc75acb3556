import Calculator.Evaluate
import Mathlib.Data.List.Forall2

/-!
# Checks and faults

A check and an evaluation go through a formula in the same order and stop at the same defect,
so what a check reports is the fault that an evaluation would stop with. A formula that has
been checked has a value in every environment, and a text is never evaluated into a fault.

A call without a defect has as many arguments as its builtin takes and a slot for each of them,
so that no argument is left out and no builtin looks for a value that is not there.
-/

namespace Calculator

/-- A builtin that formulas may call takes no more values than a call has slots. -/
theorem Builtin.fits_of_ofName? {name : String} {builtin : Builtin}
    (h : ofName? name = some builtin) : builtin.Fits := by
  have hname := ofName?_eq name
  rw [h] at hname
  split at hname
  · cases hname
    decide
  · split at hname
    · cases hname
      decide
    · split at hname
      · cases hname
        decide
      · cases hname

/-- A call without a defect has as many arguments as its builtin takes, and a slot for each. -/
theorem length_of_knownBuiltin {name : String} {count : ℕ} {builtin : Builtin}
    (h : knownBuiltin name count = .ok builtin) :
    count = builtin.arity ∧ count ≤ slotCount := by
  obtain ⟨hname, hcount⟩ := knownBuiltin_eq_ok_iff.1 h
  exact ⟨hcount, hcount ▸ Builtin.fits_of_ofName? hname⟩

/-- A list is mapped by a function that may fail exactly if it does not fail on any member, and
then the results stand in the order of the members. -/
theorem mapM_eq_ok_iff {α β ε : Type} {f : α → Except ε β} {xs : List α} {ys : List β} :
    xs.mapM f = .ok ys ↔ List.Forall₂ (fun x y => f x = .ok y) xs ys := by
  induction xs generalizing ys with
  | nil => simp [pure, Except.pure, eq_comm]
  | cons x xs ih =>
    rw [List.mapM_cons, List.forall₂_cons_left_iff]
    cases hx : f x with
    | error error => simp [bind, Except.bind]
    | ok y =>
      cases hxs : xs.mapM f with
      | error error =>
        have hnone (ys : List β) : ¬ List.Forall₂ (fun x y => f x = .ok y) xs ys := by
          rw [← ih, hxs]
          simp
        simp [bind, Except.bind, hnone]
      | ok ys' =>
        have hothers (ys : List β) : List.Forall₂ (fun x y => f x = .ok y) xs ys ↔ ys' = ys := by
          rw [← ih, hxs, Except.ok.injEq]
        simp [bind, Except.bind, pure, Except.pure, hothers, eq_comm]

namespace Formula

/-- One evaluation after another stops where one check after the other does. -/
theorem map_bind_of_check {α β : Type} {first : Except Defect α} {second : α → Except Defect β}
    {checked : Except Defect Unit × Names} {rest : Names → Except Defect Unit × Names} :
    first.map (fun _ => ()) = checked.1 →
    (∀ value, (second value).map (fun _ => ()) = (rest checked.2).1) →
      (first >>= second).map (fun _ => ()) =
        (match checked with
          | (.error defect, names) => (.error defect, names)
          | (.ok (), names) => rest names : Except Defect Unit × Names).1 := by
  intro hfirst hsecond
  obtain ⟨outcome, seen⟩ := checked
  cases first with
  | error defect =>
    cases hfirst
    rfl
  | ok value =>
    cases hfirst
    exact hsecond value

mutual

/-- An evaluation stops where a check does, at the same defect. -/
theorem map_eval (formula : Formula) (environment : Environment) (names : Names) :
    (formula.eval environment).map (fun _ => ()) = (formula.check names).1 := by
  cases formula with
  | literal value =>
    rw [eval, check]
    rfl
  | «variable» name =>
    rw [eval, check]
    rfl
  | unary symbol operand =>
    have hoperand := operand.map_eval environment names
    rw [eval, check]
    cases knownSign symbol with
    | error defect => rfl
    | ok sign =>
      rw [← hoperand]
      cases operand.eval environment <;> rfl
  | binary left symbol right =>
    have hleft := left.map_eval environment names
    have hright := right.map_eval environment (left.check names).2
    rw [eval, check]
    cases knownOperator symbol with
    | error defect => rfl
    | ok operator =>
      change Except.map _ (left.eval environment >>= _) = _
      refine map_bind_of_check hleft fun value => ?_
      rw [← hright]
      cases right.eval environment <;> rfl
  | call name arguments =>
    rw [eval, check]
    cases hknown : knownBuiltin name arguments.length with
    | error defect => rfl
    | ok builtin =>
      have hslots := (length_of_knownBuiltin hknown).2
      have harguments := map_fillSlots arguments environment
        (List.replicate slotCount 0.0) names (by simpa using hslots)
      change _ = (checkAll arguments names).1
      rw [← harguments]
      cases fillSlots environment arguments (List.replicate slotCount 0.0) <;> rfl

/-- Filling slots with arguments stops where a check of the arguments does, if there is a slot
for each argument. -/
theorem map_fillSlots (arguments : List Formula) (environment : Environment)
    (slots : List Float) (names : Names) (h : arguments.length ≤ slots.length) :
    (fillSlots environment arguments slots).map (fun _ => ()) =
      (checkAll arguments names).1 := by
  cases arguments with
  | nil =>
    rw [fillSlots, checkAll]
    rfl
  | cons argument arguments =>
    cases slots with
    | nil => exact absurd h (Nat.not_succ_le_zero _)
    | cons slot slots =>
      have hfirst := argument.map_eval environment names
      have hothers := map_fillSlots arguments environment slots (argument.check names).2
        (Nat.le_of_succ_le_succ h)
      rw [fillSlots, checkAll]
      refine map_bind_of_check hfirst fun value => ?_
      rw [← hothers]
      cases fillSlots environment arguments slots <;> rfl

end

/-- Filling slots leaves as many as there were, if there is one for each argument. -/
theorem length_fillSlots {environment : Environment} {arguments : List Formula}
    {slots filled : List Float} (hlength : arguments.length ≤ slots.length)
    (h : fillSlots environment arguments slots = .ok filled) :
    filled.length = slots.length := by
  induction arguments generalizing slots filled with
  | nil =>
    rw [fillSlots] at h
    cases h
    rfl
  | cons argument arguments ih =>
    cases slots with
    | nil => exact absurd hlength (Nat.not_succ_le_zero _)
    | cons slot slots =>
      rw [fillSlots] at h
      cases hvalue : argument.eval environment with
      | error defect => simp [hvalue, bind, Except.bind] at h
      | ok value =>
        cases hothers : fillSlots environment arguments slots with
        | error defect => simp [hvalue, hothers, bind, Except.bind] at h
        | ok others =>
          simp only [hvalue, hothers, bind, Except.bind, pure, Except.pure, Except.ok.injEq] at h
          rw [← h, List.length_cons, ih (Nat.le_of_succ_le_succ hlength) hothers,
            List.length_cons]

/-- A builtin is given as many values as it takes. -/
theorem length_take_of_fillSlots {environment : Environment} {name : String}
    {arguments : List Formula} {builtin : Builtin} {filled : List Float}
    (hknown : knownBuiltin name arguments.length = .ok builtin)
    (h : fillSlots environment arguments (List.replicate slotCount 0.0) = .ok filled) :
    (filled.take arguments.length).length = builtin.arity := by
  obtain ⟨harity, hslots⟩ := length_of_knownBuiltin hknown
  have hfilled := length_fillSlots (by simpa using hslots) h
  rw [List.length_take, hfilled, List.length_replicate, Nat.min_eq_left hslots, harity]

/-- An evaluation stops with a fault exactly if a check reports its defect. -/
theorem eval_eq_error_iff {formula : Formula} {environment : Environment} {names : Names}
    {defect : Defect} :
    formula.eval environment = .error defect ↔ (formula.check names).1 = .error defect := by
  rw [← map_eval formula environment names]
  cases formula.eval environment <;> simp [Except.map]

/-- A formula that has been checked has a value in every environment. -/
theorem exists_eval_of_check {formula : Formula} {names : Names}
    (h : (formula.check names).1 = .ok ()) (environment : Environment) :
    ∃ value, formula.eval environment = .ok value := by
  cases heval : formula.eval environment with
  | ok value => exact ⟨value, rfl⟩
  | error defect =>
    have hcheck : (formula.check names).1 = .error defect := eval_eq_error_iff.1 heval
    simp [h] at hcheck

/-- A formula that has been checked has values in all of several environments. -/
theorem exists_evalAll_of_check {formula : Formula} {names : Names}
    (h : (formula.check names).1 = .ok ()) (environments : List Environment) :
    ∃ values, formula.evalAll environments = .ok values := by
  choose value hvalue using exists_eval_of_check h
  refine ⟨environments.map value, mapM_eq_ok_iff.2 ?_⟩
  rw [List.forall₂_map_right_iff, List.forall₂_same]
  exact fun environment _ => hvalue environment

/-- An evaluation in several environments stops with a fault exactly if there are any and a
check reports its defect. -/
theorem evalAll_eq_error_iff {formula : Formula} {environments : List Environment}
    {names : Names} {defect : Defect} :
    formula.evalAll environments = .error defect ↔
      environments ≠ [] ∧ (formula.check names).1 = .error defect := by
  cases hcheck : (formula.check names).1 with
  | ok =>
    obtain ⟨values, hvalues⟩ := exists_evalAll_of_check hcheck environments
    simp [hvalues]
  | error known =>
    cases environments with
    | nil => simp [evalAll, pure, Except.pure]
    | cons environment environments =>
      have hfault : formula.eval environment = .error known := eval_eq_error_iff.2 hcheck
      simp [evalAll, List.mapM_cons, hfault, bind, Except.bind]

end Formula

/-- A text is compiled to the formula that is parsed if this passes a check, and otherwise to
the first error. -/
theorem compile_eq (text : String) : compile text = match Formula.parse text with
    | .error error => .error (.parse error)
    | .ok formula => match (formula.check ∅).1 with
      | .error defect => .error (.check defect)
      | .ok () => .ok formula := by
  unfold compile Formula.checked
  cases Formula.parse text with
  | error error => rfl
  | ok formula =>
    simp only [Except.mapError, bind, Except.bind]
    cases (formula.check ∅).1 <;> rfl

/-- A text has a formula exactly if it is parsed and the formula passes a check. -/
theorem compile_eq_ok_iff {text : String} {formula : Formula} :
    compile text = .ok formula ↔
      Formula.parse text = .ok formula ∧ (formula.check ∅).1 = .ok () := by
  rw [compile_eq]
  cases Formula.parse text with
  | error error => simp
  | ok parsed =>
    cases hcheck : (parsed.check ∅).1 with
    | error defect =>
      simp only [hcheck, Except.ok.injEq, reduceCtorEq, false_iff, not_and]
      rintro rfl
      simp [hcheck]
    | ok =>
      simp only [hcheck, Except.ok.injEq, iff_self_and]
      rintro rfl
      exact hcheck

/-- Compiling a text does not evaluate it, and so does not end in a fault. -/
theorem compile_ne_fault (text : String) (defect : Defect) :
    compile text ≠ .error (.fault defect) := by
  rw [compile_eq]
  split
  · simp
  · split <;> simp

/-- A text that has a formula is evaluated to the value of this formula. -/
theorem evaluate_of_compile {text : String} {formula : Formula}
    (h : compile text = .ok formula) (environment : Environment) :
    ∃ value, formula.eval environment = .ok value ∧ evaluate text environment = .ok value := by
  obtain ⟨value, hvalue⟩ :=
    Formula.exists_eval_of_check (compile_eq_ok_iff.1 h).2 environment
  exact ⟨value, hvalue, by simp [evaluate, h, hvalue, bind, Except.bind, Except.mapError]⟩

/-- A text that has no formula is evaluated to the error that this shows. -/
theorem evaluate_of_compile_error {text : String} {error : Error}
    (h : compile text = .error error) (environment : Environment) :
    evaluate text environment = .error error := by
  simp [evaluate, h, bind, Except.bind]

/-- Evaluating a text does not end in a fault. -/
theorem evaluate_ne_fault (text : String) (environment : Environment) (defect : Defect) :
    evaluate text environment ≠ .error (.fault defect) := by
  intro hfault
  cases hcompile : compile text with
  | error error =>
    rw [evaluate_of_compile_error hcompile] at hfault
    cases hfault
    exact compile_ne_fault text defect hcompile
  | ok formula =>
    obtain ⟨value, _, hvalue⟩ := evaluate_of_compile hcompile environment
    rw [hvalue] at hfault
    cases hfault

/-- A check foresees every fault. In every environment an evaluation stops with a fault exactly
if a check, whatever names it starts from, reports the same defect. In several environments it
does so if there are any, and otherwise lists the values in the order of the environments. There
is no other way for it to fail: a call that comes to its builtin has a slot for each argument and
gives the builtin as many values as it takes. A fault's message names the defect, and no text is
ever evaluated into a fault. -/
theorem fault_iff_check (formula : Formula) (names : Names) :
    (∀ environment defect, formula.eval environment = .error defect ↔
      (formula.check names).1 = .error defect) ∧
    (∀ environments defect, formula.evalAll environments = .error defect ↔
      environments ≠ [] ∧ (formula.check names).1 = .error defect) ∧
    (∀ environments values, formula.evalAll environments = .ok values ↔
      List.Forall₂ (fun environment value => formula.eval environment = .ok value)
        environments values) ∧
    (∀ name arguments builtin environment filled,
      knownBuiltin name arguments.length = .ok builtin →
      Formula.fillSlots environment arguments (List.replicate slotCount 0.0) = .ok filled →
        arguments.length ≤ filled.length ∧
          (filled.take arguments.length).length = builtin.arity) ∧
    (∀ defect, (Error.fault defect).message = match defect with
      | .unknownSign symbol => "unsupported unary operator: " ++ Text.quotedChar symbol
      | .unknownOperator symbol => "unsupported binary operator: " ++ Text.quotedChar symbol
      | .unknownFunction name => "unsupported function call: " ++ Text.quotedString name
      | .wrongArity name got want => "call to " ++ name ++ " has " ++ toString got ++
          " args, want " ++ toString want) ∧
    (∀ text environment defect, evaluate text environment ≠ .error (.fault defect)) := by
  refine ⟨fun environment defect => Formula.eval_eq_error_iff,
    fun environments defect => Formula.evalAll_eq_error_iff,
    fun environments values => mapM_eq_ok_iff, ?_, ?_, evaluate_ne_fault⟩
  · intro name arguments builtin environment filled hknown hfilled
    have htake := Formula.length_take_of_fillSlots hknown hfilled
    have harity := (length_of_knownBuiltin hknown).1
    refine ⟨?_, htake⟩
    rw [List.length_take, ← harity] at htake
    omega
  · intro defect
    cases defect <;> rfl

/-- Of several defects a check reports the topmost and leftmost one, and an evaluation stops
with its fault. -/
theorem fault_iff_check_several :
    (Formula.unary '-' (.binary (.call "root" [.variable "x"]) '*'
      (.call "pow" [.unary '!' (.literal 1.0)]))).eval ∅ = .error (.unknownFunction "root") ∧
    (Error.fault (.unknownFunction "root")).message = "unsupported function call: \"root\"" := by
  obtain ⟨heval, _, _, _, hmessage, _⟩ := fault_iff_check (Formula.unary '-'
    (.binary (.call "root" [.variable "x"]) '*' (.call "pow" [.unary '!' (.literal 1.0)]))) ∅
  refine ⟨(heval ∅ _).2 (by decide +kernel), (hmessage _).trans (by decide +kernel)⟩

end Calculator
