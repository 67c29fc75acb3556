import Calculator.Proofs.RoundTrip

/-!
# How high a parsed formula is

A level of nesting is used up by every operator of a chain for the operand after it, and given
back where the chain ends. The tree puts the operators over the operands before them instead,
the first operand under all of them. So a first operand that takes up levels of its own comes
to stand higher than the limit of nesting, and through calls and parentheses this adds up.
-/

namespace Calculator

namespace Formula

mutual

/-- The nodes on the longest path from a formula down to a literal or a variable. -/
def height : Formula → ℕ
  | .literal _ => 1
  | .variable _ => 1
  | .unary _ operand => operand.height + 1
  | .binary left _ right => max left.height right.height + 1
  | .call _ arguments => heightAll arguments + 1

/-- The nodes on the longest path down from one of several formulas. -/
def heightAll : List Formula → ℕ
  | [] => 0
  | formula :: formulas => max formula.height (heightAll formulas)

end

end Formula

namespace Grammar

open Formula

mutual

/-- For each number and name of an operand, the signs, calls and operators it stands under. -/
def Operand.covers : Operand → List ℕ
  | .number _ => [0]
  | .identifier _ => [0]
  | .call _ arguments => 0 :: arguments.covers.map (· + 1)
  | .group inner => inner.covers
  | .signed _ operand => operand.covers.map (· + 1)

/-- For each number and name of a term, the signs, calls and operators it stands under: an
operator stands over all operands before it in its chain and over the one after it. -/
def Term.covers : Term → List ℕ
  | .operand only => only.covers
  | .operation left _ _ right => (left.covers ++ right.covers).map (· + 1)

/-- For each number and name of a formula, the signs, calls and operators it stands under. -/
def Expression.covers : Expression → List ℕ
  | .term only => only.covers
  | .operation left _ _ right => (left.covers ++ right.covers).map (· + 1)

/-- For each number and name of arguments, the signs, calls and operators it stands under. -/
def Arguments.covers : Arguments → List ℕ
  | .last argument => argument.covers
  | .more argument others => argument.covers ++ others.covers

end

/-- A height is one more than the greatest of several covers. -/
def Reach (covers : List ℕ) (height : ℕ) : Prop :=
  0 < height ∧ ∀ bound, height ≤ bound ↔ ∀ cover ∈ covers, cover < bound

/-- A number or a name has the height one. -/
theorem reach_one : Reach [0] 1 := by
  refine ⟨Nat.one_pos, fun bound => ?_⟩
  rw [List.forall_mem_singleton]
  exact Iff.rfl

/-- Under one more node everything is covered once more. -/
theorem Reach.succ {covers : List ℕ} {height : ℕ} (h : Reach covers height) :
    Reach (covers.map (· + 1)) (height + 1) := by
  obtain ⟨hpos, hreach⟩ := h
  refine ⟨Nat.succ_pos height, fun bound => ?_⟩
  cases bound with
  | zero =>
    have hnonempty : covers ≠ [] := by
      rintro rfl
      exact absurd ((hreach 0).2 (by simp)) (by omega)
    obtain ⟨cover, rest, rfl⟩ := List.exists_cons_of_ne_nil hnonempty
    refine ⟨fun hzero => absurd hzero (Nat.not_succ_le_zero _), fun hall => ?_⟩
    exact absurd (hall (cover + 1) (by simp)) (Nat.not_lt_zero _)
  | succ bound => simp [hreach bound]

/-- Of two parts the higher one counts. -/
theorem Reach.append {covers covers' : List ℕ} {height height' : ℕ}
    (h : Reach covers height) (h' : Reach covers' height') :
    Reach (covers ++ covers') (max height height') := by
  refine ⟨Nat.lt_of_lt_of_le h.1 (Nat.le_max_left _ _), fun bound => ?_⟩
  rw [Nat.max_le, h.2 bound, h'.2 bound, List.forall_mem_append]

/-- The name of a call stands under nothing that the call itself adds. -/
theorem Reach.call {covers : List ℕ} {height : ℕ} (h : Reach covers height) :
    Reach (0 :: covers.map (· + 1)) (height + 1) := by
  have hcall := reach_one.append h.succ
  rwa [Nat.max_eq_right (Nat.le_add_left 1 height)] at hcall

mutual

/-- An operand's formula is one higher than the number or name covered most. -/
theorem Operand.reach_covers (operand : Operand) :
    Reach operand.covers operand.formula.height := by
  cases operand with
  | number value => exact reach_one
  | identifier name => exact reach_one
  | call name arguments => exact arguments.reach_covers.call
  | group inner => exact inner.reach_covers
  | signed sign operand => exact operand.reach_covers.succ

/-- A term's formula is one higher than the number or name covered most. -/
theorem Term.reach_covers (term : Term) : Reach term.covers term.formula.height := by
  cases term with
  | operand only => exact only.reach_covers
  | operation left op tight right => exact (left.reach_covers.append right.reach_covers).succ

/-- A derivation's formula is one higher than the number or name covered most. -/
theorem Expression.reach_covers (expression : Expression) :
    Reach expression.covers expression.formula.height := by
  cases expression with
  | term only => exact only.reach_covers
  | operation left op loose right => exact (left.reach_covers.append right.reach_covers).succ

/-- The highest of the arguments' formulas is one higher than the number or name covered most. -/
theorem Arguments.reach_covers (arguments : Arguments) :
    Reach arguments.covers (heightAll arguments.formulas) := by
  cases arguments with
  | last argument =>
    rw [Arguments.formulas, heightAll, heightAll, Nat.max_zero]
    exact argument.reach_covers
  | more argument others => exact argument.reach_covers.append others.reach_covers

end

/-- A chain with fewer operators than a room has levels is no higher than the sum of these
levels. -/
theorem two_mul_height_le {height room operators : ℕ} (hoperators : operators < room)
    (h : 2 * height ≤ room * (room - 1) + 2 + 2 * operators) :
    2 * height ≤ room * (room + 1) := by
  cases room with
  | zero => omega
  | succ room =>
    rw [Nat.add_sub_cancel] at h
    have hsum : (room + 1) * (room + 1 + 1) = (room + 1) * room + 2 * (room + 1) := by ring
    omega

mutual

/-- An operand that takes up no more levels than a room has is no higher than the sum of the
levels below the last of them, and one. -/
theorem Operand.height_le (operand : Operand) {room : ℕ} (h : operand.levels ≤ room) :
    2 * operand.formula.height ≤ room * (room - 1) + 2 := by
  cases room with
  | zero => exact absurd operand.levels_pos (Nat.not_lt.2 h)
  | succ room =>
    rw [Nat.add_sub_cancel, Nat.mul_comm (room + 1) room]
    cases operand with
    | number value => exact Nat.le_add_left 2 _
    | identifier name => exact Nat.le_add_left 2 _
    | call name arguments =>
      have hinside := arguments.height_le (Nat.le_of_add_le_add_right h)
      exact Nat.add_le_add_right hinside 2
    | group inner =>
      have hroom := Nat.le_of_add_le_add_right h
      have hinside := inner.height_le hroom
      have hoperators := Nat.lt_of_lt_of_le inner.operators_lt_levels hroom
      exact Nat.le_add_right_of_le (two_mul_height_le hoperators hinside)
    | signed sign operand =>
      have hroom := Nat.le_of_add_le_add_right h
      have hinside := operand.height_le hroom
      have hpos := Nat.lt_of_lt_of_le operand.levels_pos hroom
      exact Nat.add_le_add_right (two_mul_height_le hpos hinside) 2

/-- Every operator of a term adds a node over the operands before it. -/
theorem Term.height_le (term : Term) {room : ℕ} (h : term.levels ≤ room) :
    2 * term.formula.height ≤ room * (room - 1) + 2 + 2 * term.operators := by
  cases term with
  | operand only => exact only.height_le h
  | operation left op tight right =>
    have hlevels := Nat.max_le.1 h
    have hleft := left.height_le hlevels.1
    have hright := right.height_le (Nat.le_of_add_left_le hlevels.2)
    simp only [Term.formula, height, Term.operators]
    omega

/-- Every operator that counts in a formula's chain adds a node over what stands before it. -/
theorem Expression.height_le (expression : Expression) {room : ℕ}
    (h : expression.levels ≤ room) :
    2 * expression.formula.height ≤ room * (room - 1) + 2 + 2 * expression.operators := by
  cases expression with
  | term only => exact only.height_le h
  | operation left op loose right =>
    have hlevels := Nat.max_le.1 h
    have hleft := left.height_le hlevels.1
    -- The term after an operator has a level less, which makes up for its own operators.
    obtain ⟨room, rfl⟩ : ∃ room', room = room' + 1 := ⟨room - 1, by omega⟩
    have hroom : right.levels ≤ room := by omega
    have hright := right.height_le hroom
    have hoperators := Nat.lt_of_lt_of_le right.operators_lt_levels hroom
    have hterm := two_mul_height_le hoperators hright
    rw [Nat.mul_comm room] at hterm
    simp only [Expression.formula, height, Expression.operators, Nat.add_sub_cancel] at hleft ⊢
    omega

/-- Arguments that take up no more levels than a room has are no higher than the sum of these
levels. -/
theorem Arguments.height_le (arguments : Arguments) {room : ℕ} (h : arguments.levels ≤ room) :
    2 * heightAll arguments.formulas ≤ room * (room + 1) := by
  cases arguments with
  | last argument =>
    have hoperators := Nat.lt_of_lt_of_le argument.operators_lt_levels h
    rw [Arguments.formulas, heightAll, heightAll, Nat.max_zero]
    exact two_mul_height_le hoperators (argument.height_le h)
  | more argument others =>
    have hlevels := Nat.max_le.1 h
    have hoperators := Nat.lt_of_lt_of_le argument.operators_lt_levels hlevels.1
    have hfirst := two_mul_height_le hoperators (argument.height_le hlevels.1)
    have hothers := others.height_le hlevels.2
    simp only [Arguments.formulas, heightAll]
    omega

end

/-- A formula is no higher than the sum of the levels it takes up. -/
theorem Expression.two_mul_height_le_levels (expression : Expression) :
    2 * expression.formula.height ≤ expression.levels * (expression.levels + 1) :=
  two_mul_height_le expression.operators_lt_levels (expression.height_le (Nat.le_refl _))

end Grammar

end Calculator
