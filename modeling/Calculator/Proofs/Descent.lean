import Calculator.Formula.Parse
import Mathlib.Data.Nat.Notation
import Mathlib.Logic.Relation

/-!
# The descent step by step

Seen step by step, reading tokens is a descent of six routines over two counters, the position of
the next token and the depth. A routine that waits for another one stands in a frame. An operand
takes a level and gives it back, whether it is read or refused. Every operation of a chain takes a
level as well, and the chain gives all of them back at its end, which it does not come to if one
of its operands is refused.

The main statements are about all that is reached from a routine: no position lies past the end
of the tokens, the depth is what it was at the start together with the levels that the frames are
going to give back, so that these can be given back, and no more operands stand in each other
than there were levels left.
-/

namespace Calculator.Descent

/-- A routine of the descent. -/
inductive Routine where
  /-- A formula. -/
  | formula
  /-- An operand and the operations after it that bind at least as tightly as `least`. -/
  | chain (least : ℕ)
  /-- An operand, one level deeper. -/
  | operand
  /-- A sign with its operand, or an operand without a sign. -/
  | signed
  /-- An operand without a sign. -/
  | primary
  /-- The arguments of a call and the parentheses around them. -/
  | call (name : String)

/-- What is going to be done with the result that a routine waits for. -/
inductive Frame where
  /-- The first operand of a chain goes on with operations. -/
  | first (least : ℕ)
  /-- The right operand completes the last of `spine` operations and goes on with others. -/
  | right (least spine : ℕ) (left : Formula) (op : Operator)
  /-- An operand gives its level back. -/
  | level
  /-- A sign takes its operand. -/
  | sign (sign : Sign)
  /-- A formula in parentheses is closed. -/
  | group
  /-- An argument is put after the others, and the next one or the end of the call is read. -/
  | argument (name : String) (before : List Formula)

/-- Whether a frame is that of an operand. -/
def Frame.isLevel : Frame → Bool
  | level => true
  | _ => false

/-- What is done next. -/
inductive Control where
  /-- A routine is entered. -/
  | enter (routine : Routine)
  /-- Operations are read, after `spine` of them have been put together with a first operand. -/
  | operations (least spine : ℕ) (left : Formula)
  /-- A routine is left with a formula, or with what it wanted to find. -/
  | leave (result : Except String Formula)

/-- A state of the descent. -/
structure State where
  control : Control
  frames : List Frame
  position : ℕ
  depth : ℕ

/-- A state without a step: the routine that was entered first has been left. -/
def State.IsDone (state : State) : Prop :=
  ∃ result, state.control = .leave result ∧ state.frames = []

/-- The token at a position, or none at the end of the input. -/
def next? (tokens : List PlacedToken) (position : ℕ) : Option Token :=
  tokens[position]?.map PlacedToken.token

/-- The depth after levels have been given back, if there are that many. -/
def giveBack (levels depth : ℕ) : Option ℕ :=
  if levels ≤ depth then some (depth - levels) else none

section Steps

variable (tokens : List PlacedToken) (frames : List Frame) (position depth : ℕ)

/-- The first step of a routine. -/
def enter : Routine → State
  | .formula => ⟨.enter (.chain Operator.additive), frames, position, depth⟩
  | .chain least => ⟨.enter .operand, .first least :: frames, position, depth⟩
  | .operand =>
    if nestingLimit ≤ depth then
      ⟨.leave (.error Expectation.shallower.describe), frames, position, depth⟩
    else ⟨.enter .signed, .level :: frames, position, depth + 1⟩
  | .signed =>
    match next? tokens position with
    | some (.mark (.operator op)) =>
      match op.sign? with
      | some sign => ⟨.enter .operand, .sign sign :: frames, position + 1, depth⟩
      | none => ⟨.enter .primary, frames, position, depth⟩
    | _ => ⟨.enter .primary, frames, position, depth⟩
  | .primary =>
    match next? tokens position with
    | some (.number value) => ⟨.leave (.ok (.literal value)), frames, position + 1, depth⟩
    | some (.identifier name) =>
      if next? tokens (position + 1) = some (.mark .opening) then
        ⟨.enter (.call name), frames, position + 1, depth⟩
      else ⟨.leave (.ok (.variable name)), frames, position + 1, depth⟩
    | some (.mark .opening) => ⟨.enter .formula, .group :: frames, position + 1, depth⟩
    | _ => ⟨.leave (.error Expectation.operand.describe), frames, position, depth⟩
  | .call name =>
    if next? tokens position = some (.mark .opening) then
      ⟨.enter .formula, .argument name [] :: frames, position + 1, depth⟩
    else ⟨.leave (.error "'('"), frames, position, depth⟩

/-- One more operation, or the end of the chain. -/
def operations (least spine : ℕ) (left : Formula) : Option State :=
  match next? tokens position with
  | some (.mark (.operator op)) =>
    if op.precedence < least then
      (giveBack spine depth).map fun depth => ⟨.leave (.ok left), frames, position, depth⟩
    else
      some ⟨.enter (.chain (op.precedence + 1)), .right least (spine + 1) left op :: frames,
        position + 1, depth + 1⟩
  | _ => (giveBack spine depth).map fun depth => ⟨.leave (.ok left), frames, position, depth⟩

/-- What a frame does with the result that it has waited for. -/
def resume : Frame → Except String Formula → Option State
  | .level, result =>
    (giveBack 1 depth).map fun depth => ⟨.leave result, frames, position, depth⟩
  | _, .error wanted => some ⟨.leave (.error wanted), frames, position, depth⟩
  | .first least, .ok first => some ⟨.operations least 0 first, frames, position, depth⟩
  | .right least spine left op, .ok right =>
    some ⟨.operations least spine (.binary left op.symbol right), frames, position, depth⟩
  | .sign sign, .ok operand =>
    some ⟨.leave (.ok (.unary sign.symbol operand)), frames, position, depth⟩
  | .group, .ok inner =>
    if next? tokens position = some (.mark .closing) then
      some ⟨.leave (.ok inner), frames, position + 1, depth⟩
    else some ⟨.leave (.error Expectation.closing.describe), frames, position, depth⟩
  | .argument name before, .ok argument =>
    if next? tokens position = some (.mark .comma) then
      some ⟨.enter .formula, .argument name (before ++ [argument]) :: frames, position + 1, depth⟩
    else if next? tokens position = some (.mark .closing) then
      some ⟨.leave (.ok (.call name (before ++ [argument]))), frames, position + 1, depth⟩
    else some ⟨.leave (.error Expectation.argumentEnd.describe), frames, position, depth⟩

end Steps

/-- The step of a state, none if the descent is done or there are not as many levels as it gives
back. -/
def step (tokens : List PlacedToken) : State → Option State
  | ⟨.enter routine, frames, position, depth⟩ => some (enter tokens frames position depth routine)
  | ⟨.operations least spine left, frames, position, depth⟩ =>
    operations tokens frames position depth least spine left
  | ⟨.leave result, frame :: frames, position, depth⟩ =>
    resume tokens frames position depth frame result
  | ⟨.leave _, [], _, _⟩ => none

/-- The levels that a state gives back at most in its step. -/
def State.givesBack : State → ℕ
  | ⟨.operations _ spine _, _, _, _⟩ => spine
  | ⟨.leave _, .level :: _, _, _⟩ => 1
  | _ => 0

/-- One state is reached from another one by steps. -/
def Reaches (tokens : List PlacedToken) : State → State → Prop :=
  Relation.ReflTransGen fun state next => step tokens state = some next

/-- The levels that a frame is going to give back. -/
def Frame.owed : Frame → ℕ
  | right _ spine _ _ => spine
  | level => 1
  | _ => 0

/-- The levels that frames are going to give back. -/
def owed : List Frame → ℕ
  | [] => 0
  | frame :: frames => owed frames + frame.owed

/-- The number of operands that stand in each other. -/
def nested : List Frame → ℕ
  | [] => 0
  | frame :: frames => nested frames + frame.isLevel.toNat

/-- The depth fits what is done next, if the frames leave a level: operations owe their levels
themselves, and where an operand has been refused the levels of its chain are not given back. -/
def Control.Balanced : Control → (level depth : ℕ) → Prop
  | .enter _, level, depth => depth = level
  | .operations _ spine _, level, depth => depth = level + spine
  | .leave (.ok _), level, depth => depth = level
  | .leave (.error _), level, depth => level ≤ depth

/-- What holds of each state that is reached from a routine at a depth. -/
structure Balanced (tokens : List PlacedToken) (start : ℕ) (state : State) : Prop where
  /-- The position is not past the end of the tokens. -/
  position : state.position ≤ tokens.length
  /-- The levels taken are those that are going to be given back. -/
  depth : state.control.Balanced (start + owed state.frames) state.depth
  /-- Each operand that is read stands on a level of its own. -/
  nesting : start + nested state.frames ≤ nestingLimit

variable {tokens : List PlacedToken} {start : ℕ}

/-- A token stands before the end of the tokens. -/
theorem lt_length_of_next? {position : ℕ} {token : Token}
    (h : next? tokens position = some token) : position < tokens.length := by
  obtain ⟨placed, hplaced, _⟩ := Option.map_eq_some_iff.1 h
  exact (List.getElem?_eq_some_iff.1 hplaced).1

/-- Levels are given back if there are as many. -/
theorem giveBack_of_le {levels depth : ℕ} (h : levels ≤ depth) :
    giveBack levels depth = some (depth - levels) :=
  if_pos h

/-- An operand is left with its level given back. -/
theorem resume_level {depth : ℕ} (h : 1 ≤ depth) (tokens : List PlacedToken)
    (frames : List Frame) (position : ℕ) (result : Except String Formula) :
    resume tokens frames position depth .level result =
      some ⟨.leave result, frames, position, depth - 1⟩ := by
  rw [resume, giveBack_of_le h]
  rfl

/-- A chain that ends at the next token gives its levels back. -/
theorem operations_of_loose {position least spine : ℕ}
    (h : ∀ op, next? tokens position = some (.mark (.operator op)) → op.precedence < least)
    (frames : List Frame) (depth : ℕ) (left : Formula) :
    operations tokens frames position (depth + spine) least spine left =
      some ⟨.leave (.ok left), frames, position, depth⟩ := by
  have hback : giveBack spine (depth + spine) = some depth := by
    rw [giveBack_of_le (Nat.le_add_left _ _), Nat.add_sub_cancel]
  rw [operations]
  split
  · rename_i op hnext
    rw [if_pos (h op hnext), hback]
    rfl
  · rw [hback]
    rfl

/-- A chain that goes on at the next token takes one more level. -/
theorem operations_of_tight {position least : ℕ} {op : Operator}
    (hnext : next? tokens position = some (.mark (.operator op))) (htight : least ≤ op.precedence)
    (frames : List Frame) (depth spine : ℕ) (left : Formula) :
    operations tokens frames position depth least spine left =
      some ⟨.enter (.chain (op.precedence + 1)), .right least (spine + 1) left op :: frames,
        position + 1, depth + 1⟩ := by
  simp only [operations, hnext, if_neg (Nat.not_lt.2 htight)]

/-- At a token a chain goes on with an operator, or it ends. -/
theorem tight_or_loose (tokens : List PlacedToken) (position least : ℕ) :
    (∃ op, next? tokens position = some (.mark (.operator op)) ∧ least ≤ op.precedence) ∨
      ∀ op, next? tokens position = some (.mark (.operator op)) → op.precedence < least := by
  by_cases h : ∃ op, next? tokens position = some (.mark (.operator op)) ∧ least ≤ op.precedence
  · exact .inl h
  · exact .inr fun op hnext => Nat.lt_of_not_le fun hle => h ⟨op, hnext, hle⟩

/-- Every operand owes a level. -/
theorem nested_le_owed (frames : List Frame) : nested frames ≤ owed frames := by
  induction frames with
  | nil => exact Nat.le_refl 0
  | cons frame frames ih =>
    have hframe : frame.isLevel.toNat ≤ frame.owed := by
      cases frame <;> simp [Frame.isLevel, Frame.owed]
    exact Nat.add_le_add ih hframe

/-- The first step of a routine keeps the balance. -/
theorem Balanced.enter {routine : Routine} {frames : List Frame} {position depth : ℕ}
    (h : Balanced tokens start ⟨.enter routine, frames, position, depth⟩) :
    Balanced tokens start (enter tokens frames position depth routine) := by
  obtain ⟨hposition, hdepth, hnesting⟩ := h
  cases routine with
  | formula => exact ⟨hposition, hdepth, hnesting⟩
  | chain least => exact ⟨hposition, hdepth, hnesting⟩
  | operand =>
    rw [Descent.enter]
    split
    · exact ⟨hposition, Nat.le_of_eq hdepth.symm, hnesting⟩
    · -- The operands around this one stand on levels of their own, and there is one more level.
      have hnested := nested_le_owed frames
      have hlevel : depth = start + owed frames := hdepth
      refine ⟨hposition, congrArg (· + 1) hdepth, ?_⟩
      change start + (nested frames + 1) ≤ nestingLimit
      omega
  | signed =>
    rw [Descent.enter]
    split
    · rename_i hnext
      split
      · exact ⟨lt_length_of_next? hnext, hdepth, hnesting⟩
      · exact ⟨hposition, hdepth, hnesting⟩
    · exact ⟨hposition, hdepth, hnesting⟩
  | primary =>
    rw [Descent.enter]
    split
    · rename_i hnext
      exact ⟨lt_length_of_next? hnext, hdepth, hnesting⟩
    · rename_i hnext
      split
      · exact ⟨lt_length_of_next? hnext, hdepth, hnesting⟩
      · exact ⟨lt_length_of_next? hnext, hdepth, hnesting⟩
    · rename_i hnext
      exact ⟨lt_length_of_next? hnext, hdepth, hnesting⟩
    · exact ⟨hposition, Nat.le_of_eq hdepth.symm, hnesting⟩
  | call name =>
    rw [Descent.enter]
    split
    · rename_i hnext
      exact ⟨lt_length_of_next? hnext, hdepth, hnesting⟩
    · exact ⟨hposition, Nat.le_of_eq hdepth.symm, hnesting⟩

/-- Operations can give their levels back, and going on with them keeps the balance. -/
theorem Balanced.operations {least spine : ℕ} {left : Formula} {frames : List Frame}
    {position depth : ℕ}
    (h : Balanced tokens start ⟨.operations least spine left, frames, position, depth⟩) :
    ∃ next, operations tokens frames position depth least spine left = some next ∧
      Balanced tokens start next := by
  obtain ⟨hposition, hdepth, hnesting⟩ := h
  obtain rfl : depth = start + owed frames + spine := hdepth
  obtain ⟨op, hnext, htight⟩ | hloose := tight_or_loose tokens position least
  · refine ⟨_, operations_of_tight hnext htight frames _ spine left, lt_length_of_next? hnext, ?_,
      hnesting⟩
    change start + owed frames + spine + 1 = start + (owed frames + (spine + 1))
    omega
  · exact ⟨_, operations_of_loose hloose frames _ left, hposition, rfl, hnesting⟩

/-- An operand can give its level back, and a frame that goes on with a result keeps the
balance. -/
theorem Balanced.resume {frame : Frame} {result : Except String Formula} {frames : List Frame}
    {position depth : ℕ}
    (h : Balanced tokens start ⟨.leave result, frame :: frames, position, depth⟩) :
    ∃ next, resume tokens frames position depth frame result = some next ∧
      Balanced tokens start next := by
  obtain ⟨hposition, hdepth, hnesting⟩ := h
  have hfewer : start + nested frames ≤ nestingLimit :=
    Nat.le_trans (Nat.add_le_add_left (Nat.le_add_right _ _) _) hnesting
  cases result with
  | error wanted =>
    have hlevels : start + (owed frames + frame.owed) ≤ depth := hdepth
    have hless : start + owed frames ≤ depth := by omega
    cases frame with
    | level =>
      have hone : start + (owed frames + 1) ≤ depth := hlevels
      refine ⟨_, resume_level (by omega) tokens frames position _, hposition, ?_, hfewer⟩
      change start + owed frames ≤ depth - 1
      omega
    | first least => exact ⟨_, rfl, hposition, hless, hfewer⟩
    | right least spine left op => exact ⟨_, rfl, hposition, hless, hfewer⟩
    | sign sign => exact ⟨_, rfl, hposition, hless, hfewer⟩
    | group => exact ⟨_, rfl, hposition, hless, hfewer⟩
    | argument name before => exact ⟨_, rfl, hposition, hless, hfewer⟩
  | ok formula =>
    cases frame with
    | level =>
      have hlevel : depth = start + (owed frames + 1) := hdepth
      refine ⟨_, resume_level (by omega) tokens frames position _, hposition, ?_, hfewer⟩
      change depth - 1 = start + owed frames
      omega
    | first least => exact ⟨_, rfl, hposition, hdepth, hfewer⟩
    | right least spine left op =>
      refine ⟨_, rfl, hposition, ?_, hfewer⟩
      exact hdepth.trans (Nat.add_assoc _ _ _).symm
    | sign sign => exact ⟨_, rfl, hposition, hdepth, hfewer⟩
    | group =>
      rw [Descent.resume]
      split
      · rename_i hnext
        exact ⟨_, rfl, lt_length_of_next? hnext, hdepth, hfewer⟩
      · exact ⟨_, rfl, hposition, Nat.le_of_eq hdepth.symm, hfewer⟩
    | argument name before =>
      rw [Descent.resume]
      split
      · rename_i hcomma
        exact ⟨_, rfl, lt_length_of_next? hcomma, hdepth, hfewer⟩
      · split
        · rename_i hclosing
          exact ⟨_, rfl, lt_length_of_next? hclosing, hdepth, hfewer⟩
        · exact ⟨_, rfl, hposition, Nat.le_of_eq hdepth.symm, hfewer⟩

/-- A balanced state is done, or it has a step, and this keeps the balance. -/
theorem Balanced.step {state : State} (h : Balanced tokens start state) :
    state.IsDone ∨ ∃ next, step tokens state = some next ∧ Balanced tokens start next := by
  obtain ⟨control, frames, position, depth⟩ := state
  cases control with
  | enter routine => exact .inr ⟨_, rfl, h.enter⟩
  | operations least spine left => exact .inr h.operations
  | leave result =>
    cases frames with
    | nil => exact .inl ⟨result, rfl, rfl⟩
    | cons frame frames => exact .inr h.resume

/-- In a balanced state there are the levels that it gives back. -/
theorem Balanced.givesBack_le {state : State} (h : Balanced tokens start state) :
    state.givesBack ≤ state.depth := by
  obtain ⟨control, frames, position, depth⟩ := state
  have hdepth := h.depth
  cases control with
  | enter routine => exact Nat.zero_le _
  | operations least spine left =>
    have hspine : depth = start + owed frames + spine := hdepth
    exact Nat.le.intro ((Nat.add_comm _ _).trans hspine.symm)
  | leave result =>
    match frames with
    | [] => exact Nat.zero_le _
    | .first _ :: _ | .right _ _ _ _ :: _ | .sign _ :: _ | .group :: _ | .argument _ _ :: _ =>
      exact Nat.zero_le _
    | .level :: frames =>
      have howed : start + (owed frames + 1) ≤ depth := by
        cases result with
        | ok formula => exact Nat.le_of_eq hdepth.symm
        | error wanted => exact hdepth
      change 1 ≤ depth
      omega

/-- A state that is done has no step. -/
theorem step_of_isDone {state : State} (h : state.IsDone) : Descent.step tokens state = none := by
  obtain ⟨control, frames, position, depth⟩ := state
  obtain ⟨result, rfl, rfl⟩ := h
  rfl

/-- Every state reached from a balanced one is balanced. -/
theorem Balanced.reaches {state state' : State} (h : Balanced tokens start state)
    (hreaches : Reaches tokens state state') : Balanced tokens start state' := by
  induction hreaches with
  | refl => exact h
  | tail _ hstep ih =>
    obtain hdone | ⟨next, hnext, hbalanced⟩ := ih.step
    · rw [step_of_isDone hdone] at hstep
      cases hstep
    · rw [hnext, Option.some.injEq] at hstep
      exact hstep ▸ hbalanced

/-- A routine starts in balance where there are as many levels as it starts at. -/
theorem balanced_enter {position : ℕ} (routine : Routine) (hposition : position ≤ tokens.length)
    (hstart : start ≤ nestingLimit) :
    Balanced tokens start ⟨.enter routine, [], position, start⟩ :=
  ⟨hposition, rfl, hstart⟩

/-- Nothing but itself is reached from a state that is done. -/
theorem eq_of_isDone {state state' : State} (hdone : state.IsDone)
    (h : Reaches tokens state state') : state = state' := by
  cases h.cases_head with
  | inl hsame => exact hsame
  | inr hnext =>
    obtain ⟨_, hstep, _⟩ := hnext
    rw [step_of_isDone hdone] at hstep
    cases hstep

/-- If the descent ends somewhere, it ends there from every state on the way. -/
theorem Reaches.of_isDone {state state' final : State} (h : Reaches tokens state final)
    (hdone : final.IsDone) (h' : Reaches tokens state state') : Reaches tokens state' final := by
  have htotal : Reaches tokens state' final ∨ Reaches tokens final state' :=
    Relation.ReflTransGen.total_of_right_unique
      (fun _ _ _ hstep hstep' => Option.some.inj (hstep.symm.trans hstep')) h' h
  cases htotal with
  | inl hfurther => exact hfurther
  | inr hback => rw [eq_of_isDone hdone hback]; exact .refl

end Calculator.Descent
