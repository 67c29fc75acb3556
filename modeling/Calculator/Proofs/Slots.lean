import Calculator.Proofs.Faults

/-!
# The slots of a call

A call has a fixed number of slots, and the values of its arguments go into them as long as there
are any. An evaluation that knows no slots collects the values of all arguments from left to
right and hands them over as they are. The two agree on every formula: a call that comes to its
builtin has a slot for each argument, so the slots that are handed over hold the values of the
arguments and nothing that was in a slot before.
-/

namespace Calculator.Formula

mutual

/-- The value of a formula whose calls hand over all the values of their arguments, or the
defect met. -/
def plainEval (environment : Environment) : Formula → Except Defect Float
  | .literal value => .ok value
  | .variable name => .ok (environment.value name)
  | .unary symbol operand => do
    let sign ← knownSign symbol
    let operand ← operand.plainEval environment
    return sign.apply operand
  | .binary left symbol right => do
    let operator ← knownOperator symbol
    let left ← left.plainEval environment
    let right ← right.plainEval environment
    return operator.apply left right
  | .call name arguments => do
    let builtin ← knownBuiltin name arguments.length
    let values ← plainValues environment arguments
    return builtin.apply values

/-- The values of arguments from left to right, or the first defect met. -/
def plainValues (environment : Environment) : List Formula → Except Defect (List Float)
  | [] => .ok []
  | argument :: arguments => do
    let value ← argument.plainEval environment
    let others ← plainValues environment arguments
    return value :: others

end

/-- The values of arguments are collected one by one. -/
theorem plainValues_eq_mapM (environment : Environment) (arguments : List Formula) :
    plainValues environment arguments = arguments.mapM (·.plainEval environment) := by
  induction arguments with
  | nil =>
    rw [plainValues]
    rfl
  | cons argument arguments ih =>
    rw [plainValues, List.mapM_cons, ih]

/-- There is a value for each argument. -/
theorem length_of_plainValues {environment : Environment} {arguments : List Formula}
    {values : List Float} (h : plainValues environment arguments = .ok values) :
    values.length = arguments.length := by
  rw [plainValues_eq_mapM, mapM_eq_ok_iff] at h
  exact h.length_eq.symm

/-- Slots filled with values hand over these values, if there is one for each argument. -/
theorem map_take_of_plainValues (environment : Environment) (arguments : List Formula)
    (slots : List Float) :
    ((plainValues environment arguments).map (· ++ slots)).map (·.take arguments.length) =
      plainValues environment arguments := by
  cases hvalues : plainValues environment arguments with
  | error defect => rfl
  | ok values => simp [Except.map, ← length_of_plainValues hvalues]

mutual

/-- Every formula has the value, or the defect, that it has without slots. -/
theorem eval_eq_plainEval (formula : Formula) (environment : Environment) :
    formula.eval environment = formula.plainEval environment := by
  cases formula with
  | literal value => rw [eval, plainEval]
  | «variable» name => rw [eval, plainEval]
  | unary symbol operand => rw [eval, plainEval, operand.eval_eq_plainEval]
  | binary left symbol right =>
    rw [eval, plainEval, left.eval_eq_plainEval, right.eval_eq_plainEval]
  | call name arguments =>
    rw [eval, plainEval]
    cases hknown : knownBuiltin name arguments.length with
    | error defect => rfl
    | ok builtin =>
      have hslots := (length_of_knownBuiltin hknown).2
      have hfilled := fillSlots_eq_plainValues arguments environment
        (List.replicate slotCount 0.0) (by simpa using hslots)
      have htaken := map_take_of_plainValues environment arguments
        ((List.replicate slotCount 0.0).drop arguments.length)
      rw [← hfilled] at htaken
      -- What is handed over is what has been collected, so the builtin gives the same result.
      change fillSlots environment arguments (List.replicate slotCount 0.0) >>= _ =
        plainValues environment arguments >>= _
      rw [← htaken]
      cases fillSlots environment arguments (List.replicate slotCount 0.0) <;> rfl

/-- Slots are filled with the values of all arguments in front of the slots that are left, if
there is a slot for each argument. -/
theorem fillSlots_eq_plainValues (arguments : List Formula) (environment : Environment)
    (slots : List Float) (h : arguments.length ≤ slots.length) :
    fillSlots environment arguments slots =
      (plainValues environment arguments).map (· ++ slots.drop arguments.length) := by
  cases arguments with
  | nil =>
    rw [fillSlots, plainValues]
    rfl
  | cons argument arguments =>
    cases slots with
    | nil => exact absurd h (Nat.not_succ_le_zero _)
    | cons slot slots =>
      have hothers := fillSlots_eq_plainValues arguments environment slots
        (Nat.le_of_succ_le_succ h)
      rw [fillSlots, plainValues, argument.eval_eq_plainEval, hothers]
      cases argument.plainEval environment with
      | error defect => rfl
      | ok value => cases plainValues environment arguments <;> rfl

end

/-- What a call hands over from slots that held anything are the values of its arguments, if
there is a slot for each. -/
theorem map_take_fillSlots {arguments : List Formula} {slots : List Float}
    (environment : Environment) (h : arguments.length ≤ slots.length) :
    (fillSlots environment arguments slots).map (·.take arguments.length) =
      arguments.mapM (·.eval environment) := by
  simp only [eval_eq_plainEval]
  rw [fillSlots_eq_plainValues arguments environment slots h, map_take_of_plainValues,
    plainValues_eq_mapM]

/-- The slots of a call never show. In every environment each formula has the value that it has
if calls collect the values of all their arguments from left to right, or it stops at the same
defect. A call that comes to its builtin has a slot for each argument, filling the slots leaves
as many as there were, and whatever they held before, the builtin is given exactly the values of
the arguments, or the call stops at the first defect among them. -/
theorem eval_without_slots (formula : Formula) (environment : Environment) :
    formula.eval environment = formula.plainEval environment ∧
    ∀ name arguments builtin, knownBuiltin name arguments.length = .ok builtin →
      arguments.length ≤ slotCount ∧
      ∀ slots, slots.length = slotCount →
        (∀ filled, fillSlots environment arguments slots = .ok filled →
          filled.length = slotCount) ∧
        (fillSlots environment arguments slots).map (·.take arguments.length) =
          arguments.mapM (·.eval environment) := by
  refine ⟨formula.eval_eq_plainEval environment, ?_⟩
  intro name arguments builtin hknown
  have hslots := (length_of_knownBuiltin hknown).2
  refine ⟨hslots, ?_⟩
  intro slots hlength
  have hroom : arguments.length ≤ slots.length := hlength ▸ hslots
  refine ⟨?_, map_take_fillSlots environment hroom⟩
  intro filled hfilled
  rw [length_fillSlots hroom hfilled, hlength]

/-- A call that takes one value hands over this one from slots that hold others, and a call stops
at the defect of its second argument. -/
theorem eval_without_slots_used :
    (fillSlots ∅ [.literal 4.0] [5.0, 7.0]).map (·.take 1) = .ok [4.0] ∧
    (fillSlots ∅ [.literal 2.0, .unary '!' (.variable "x")] [5.0, 7.0]).map (·.take 2) =
      .error (.unknownSign '!') := by
  have hsqrt : knownBuiltin "sqrt" 1 = .ok .sqrt :=
    knownBuiltin_eq_ok_iff.2 ⟨by simp [Builtin.ofName?_eq], rfl⟩
  have hpow : knownBuiltin "pow" 2 = .ok .pow :=
    knownBuiltin_eq_ok_iff.2 ⟨by simp [Builtin.ofName?_eq], rfl⟩
  obtain ⟨_, hcall⟩ := eval_without_slots (.call "sqrt" [.literal 4.0]) ∅
  obtain ⟨_, hone⟩ := hcall "sqrt" [.literal 4.0] .sqrt hsqrt
  obtain ⟨_, htwo⟩ := hcall "pow" [.literal 2.0, .unary '!' (.variable "x")] .pow hpow
  exact ⟨(hone [5.0, 7.0] rfl).2, (htwo [5.0, 7.0] rfl).2⟩

end Calculator.Formula
