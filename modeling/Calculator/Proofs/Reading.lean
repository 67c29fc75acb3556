import Calculator.Proofs.Grammar

/-!
# Reading what the grammar derives

The readers are followed along a derivation of the tokens in front of them. What stands
after these tokens is arbitrary, up to what would make the chain at the end go on. Reading a
chain then comes to the same as going on with the operations after it, with one level less
for each operator that counts, unless the chain overruns the room.

Chains are grouped from the left while the reader folds them up, so the statements about
terms and formulas speak of the operations still to be read and not of a result.
-/

namespace Calculator

/-- Nothing goes on here: no parenthesis opens and no operator binds as tightly as `least`. -/
def Stops (least : ℕ) (rest : List PlacedToken) : Prop :=
  ∀ next ∈ rest.head?, next.token ≠ .mark .opening ∧
    ∀ op, next.token = .mark (.operator op) → op.precedence < least

/-- What stops a chain of loose operators stops a chain of tight ones. -/
theorem Stops.mono {least least' : ℕ} {rest : List PlacedToken} (h : Stops least rest)
    (hle : least ≤ least') : Stops least' rest := fun next hnext =>
  ⟨(h next hnext).1, fun op hop => Nat.lt_of_lt_of_le ((h next hnext).2 op hop) hle⟩

/-- Every chain stops at a closing parenthesis. -/
theorem stops_closing (least position : ℕ) (rest : List PlacedToken) :
    Stops least (⟨.mark .closing, position⟩ :: rest) := by
  simp [Stops]

/-- Every chain stops at a comma. -/
theorem stops_comma (least position : ℕ) (rest : List PlacedToken) :
    Stops least (⟨.mark .comma, position⟩ :: rest) := by
  simp [Stops]

/-- Every chain stops at the end. -/
theorem stops_nil (least : ℕ) : Stops least [] := by
  simp [Stops]

/-- A chain stops at an operator that binds less tightly. -/
theorem stops_operator {least : ℕ} {op : Operator} (h : op.precedence < least)
    (position : ℕ) (rest : List PlacedToken) :
    Stops least (⟨.mark (.operator op), position⟩ :: rest) := by
  simp [Stops, h]

namespace Formula

/-- A result that comes out of two steps comes out of the second on a result of the first. -/
theorem exists_of_bind_eq_ok {ε α β : Type} {first : Except ε α} {second : α → Except ε β}
    {result : β} (h : first >>= second = .ok result) :
    ∃ middle, first = .ok middle ∧ second middle = .ok result := by
  cases first with
  | error error => cases h
  | ok middle => exact ⟨middle, rfl, h⟩

/-- A property of operands and one of operations hold within any room if operands have theirs
without a level left and with one level more than both have theirs, and operations have theirs
where both hold with one level less, if there is one. -/
theorem forall_room (operands operations : ℕ → Prop) (hzero : operands 0)
    (hsucc : ∀ room, operands room → operations room → operands (room + 1))
    (hpred : ∀ room, (∀ room', room = room' + 1 → operands room' ∧ operations room') →
      operations room) (room : ℕ) : operands room ∧ operations room := by
  induction room with
  | zero => exact ⟨hzero, hpred 0 fun _ h => absurd h (Nat.zero_ne_add_one _)⟩
  | succ room ih =>
    refine ⟨hsucc room ih.1 ih.2, hpred (room + 1) fun _ h => ?_⟩
    cases h
    exact ih

/-- The result of reading, unless the room is overrun that many tokens after the first. -/
def unlessOverrun {α : Type} (overrun? : Option ℕ) (tokens : List PlacedToken)
    (result : Except Refusal α) : Except Refusal α :=
  match overrun? with
  | none => result
  | some count => .error ⟨.shallower, tokens.drop count⟩

section UnlessOverrun

variable {α β : Type} (tokens : List PlacedToken)

/-- Without a place where the room is overrun the result stands. -/
@[simp] theorem unlessOverrun_none (result : Except Refusal α) :
    unlessOverrun none tokens result = result := rfl

/-- Reading that overruns the room at once is refused at the first token. -/
@[simp] theorem unlessOverrun_zero (result : Except Refusal α) :
    unlessOverrun (some 0) tokens result = .error ⟨.shallower, tokens⟩ := rfl

/-- Going on after reading goes on with the result. -/
theorem unlessOverrun_bind (overrun? : Option ℕ) (result : Except Refusal α)
    (next : α → Except Refusal β) :
    unlessOverrun overrun? tokens result >>= next =
      unlessOverrun overrun? tokens (result >>= next) := by
  cases overrun? <;> rfl

/-- The first of two places where the room is overrun counts. -/
theorem unlessOverrun_or (first? second? : Option ℕ) (result : Except Refusal α) :
    unlessOverrun (first?.or second?) tokens result =
      unlessOverrun first? tokens (unlessOverrun second? tokens result) := by
  cases first? <;> rfl

/-- Tokens in front of those that are read only move the place. -/
theorem unlessOverrun_map (front : List PlacedToken) (overrun? : Option ℕ)
    (result : Except Refusal α) :
    unlessOverrun (overrun?.map (· + front.length)) (front ++ tokens) result =
      unlessOverrun overrun? tokens result := by
  cases overrun? with
  | none => rfl
  | some count =>
    simp only [Option.map_some, unlessOverrun, Nat.add_comm count, List.drop_append]
    simp

/-- A token in front of those that are read only moves the place by one. -/
theorem unlessOverrun_map_one (token : PlacedToken) (overrun? : Option ℕ)
    (result : Except Refusal α) :
    unlessOverrun (overrun?.map (· + 1)) (token :: tokens) result =
      unlessOverrun overrun? tokens result := unlessOverrun_map tokens [token] overrun? result

/-- Two tokens in front of those that are read only move the place by two. -/
theorem unlessOverrun_map_two (token token' : PlacedToken) (overrun? : Option ℕ)
    (result : Except Refusal α) :
    unlessOverrun (overrun?.map (· + 2)) (token :: token' :: tokens) result =
      unlessOverrun overrun? tokens result :=
  unlessOverrun_map tokens [token, token'] overrun? result

end UnlessOverrun

/-- An operand and the operations after it that bind at least as tightly as `least`. -/
def readChain (room least : ℕ) (tokens : List PlacedToken) :
    Except Refusal (Reading Formula) := do
  let (first, rest) ← readOperand room tokens
  readOperations room least first rest

/-- A formula is a chain of operators of any strength. -/
theorem readFormula_eq (room : ℕ) :
    readFormula room = readChain room Operator.additive := rfl

/-- No operation is read where the chain stops. -/
theorem readOperations_of_stops {least : ℕ} {rest : List PlacedToken} (h : Stops least rest)
    (room : ℕ) (first : Formula) :
    readOperations room least first rest = .ok (first, rest) := by
  match rest, room with
  | [], 0 | [], _ + 1 => rfl
  | ⟨token, position⟩ :: rest, room =>
    match token with
    | .number _ | .identifier _ | .mark .opening | .mark .closing | .mark .comma =>
      cases room <;> rfl
    | .mark (.operator op) =>
      have hloose := (h _ rfl).2 op rfl
      cases room <;> simp only [readOperations, if_pos hloose] <;> rfl

/-- An operation without a level left for its right operand is refused there. -/
theorem readOperations_zero {least : ℕ} {op : Operator} (h : least ≤ op.precedence)
    (first : Formula) (position : ℕ) (rest : List PlacedToken) :
    readOperations 0 least first (⟨.mark (.operator op), position⟩ :: rest) =
      .error ⟨.shallower, rest⟩ := by
  simp only [readOperations, if_neg (Nat.not_lt.2 h)]

/-- An operation takes as its right operand a chain that binds more tightly, and goes on. -/
theorem readOperations_succ {least : ℕ} {op : Operator} (h : least ≤ op.precedence)
    (room : ℕ) (first : Formula) (position : ℕ) (rest : List PlacedToken) :
    readOperations (room + 1) least first (⟨.mark (.operator op), position⟩ :: rest) =
      readChain room (op.precedence + 1) rest >>= fun reading =>
        readOperations room least (.binary first op.symbol reading.1) reading.2 := by
  simp only [readOperations, if_neg (Nat.not_lt.2 h), readChain, bind_assoc]

/-- A chain goes on with one more operation where its right operand is read as expected. -/
theorem readChain_operation {room left least : ℕ} {first right : Formula} {op : Operator}
    {position : ℕ} {before after rest : List PlacedToken} {overrun? : Option ℕ}
    {right? : ℕ → Option ℕ} (hleast : least ≤ op.precedence)
    (hleft : readChain room least (before ++ ⟨.mark (.operator op), position⟩ :: (after ++ rest)) =
      unlessOverrun overrun? (before ++ ⟨.mark (.operator op), position⟩ :: (after ++ rest))
        (readOperations left least first (⟨.mark (.operator op), position⟩ :: (after ++ rest))))
    (hright : ∀ room, readChain room (op.precedence + 1) (after ++ rest) =
      unlessOverrun (right? room) (after ++ rest) (.ok (right, rest)))
    (hzero : right? 0 = some 0) :
    readChain room least (before ++ ⟨.mark (.operator op), position⟩ :: (after ++ rest)) =
      unlessOverrun (overrun?.or ((right? (left - 1)).map (· + (before.length + 1))))
        (before ++ ⟨.mark (.operator op), position⟩ :: (after ++ rest))
        (readOperations (left - 1) least (.binary first op.symbol right) rest) := by
  have hsplit : before ++ ⟨.mark (.operator op), position⟩ :: (after ++ rest) =
      (before ++ [⟨.mark (.operator op), position⟩]) ++ (after ++ rest) := by simp
  have hlength : before.length + 1 =
      (before ++ [(⟨.mark (.operator op), position⟩ : PlacedToken)]).length := by simp
  rw [hleft, unlessOverrun_or]
  congr 1
  rw [hsplit, hlength, unlessOverrun_map]
  -- Without a level left the right operand is refused, as its own reader refuses it.
  cases left with
  | zero => rw [readOperations_zero hleast, Nat.zero_sub, hzero, unlessOverrun_zero]
  | succ left =>
    rw [readOperations_succ hleast, hright, unlessOverrun_bind]
    rfl

end Formula

namespace Grammar

open Formula

/-- Tokens around a token are placed around that token. -/
theorem exists_placed {placed : List PlacedToken} {front back : List Token} {token : Token}
    (h : placed.map PlacedToken.token = front ++ token :: back) :
    ∃ before position after, placed = before ++ ⟨token, position⟩ :: after ∧
      before.map PlacedToken.token = front ∧ after.map PlacedToken.token = back := by
  obtain ⟨before, _, rfl, hfront, h⟩ := List.map_eq_append_iff.1 h
  obtain ⟨⟨_, position⟩, after, rfl, rfl, hback⟩ := List.map_eq_cons_iff.1 h
  exact ⟨before, position, after, rfl, hfront, hback⟩

/-- Tokens after a token are placed after that token. -/
theorem exists_placed_cons {placed : List PlacedToken} {back : List Token} {token : Token}
    (h : placed.map PlacedToken.token = token :: back) :
    ∃ position after, placed = ⟨token, position⟩ :: after ∧
      after.map PlacedToken.token = back := by
  obtain ⟨⟨_, position⟩, after, rfl, rfl, hback⟩ := List.map_eq_cons_iff.1 h
  exact ⟨position, after, rfl, hback⟩

/-- A term overruns an empty room at its first token. -/
@[simp] theorem Term.overrun?_zero (term : Term) : term.overrun? 0 = some 0 := by
  cases term with
  | operand only => exact only.overrun?_zero
  | operation left op tight right => simp [Term.overrun?, left.overrun?_zero]

mutual

/-- The tokens of an operand are read as its formula, unless they overrun the room. -/
theorem Operand.readOperand_eq (operand : Operand) (room : ℕ) {placed rest : List PlacedToken}
    (htokens : placed.map PlacedToken.token = operand.tokens)
    (hrest : Stops (Operator.multiplicative + 1) rest) :
    readOperand room (placed ++ rest) =
      unlessOverrun (operand.overrun? room) (placed ++ rest) (.ok (operand.formula, rest)) := by
  cases room with
  | zero => simp [readOperand]
  | succ room =>
    cases operand with
    | number value =>
      obtain ⟨position, _, rfl, hnil⟩ := exists_placed_cons htokens
      cases List.map_eq_nil_iff.1 hnil
      rfl
    | identifier name =>
      obtain ⟨position, _, rfl, hnil⟩ := exists_placed_cons htokens
      cases List.map_eq_nil_iff.1 hnil
      -- A name is a variable only if no parenthesis opens after it.
      match rest, hrest with
      | [], _ => rfl
      | ⟨.number _, _⟩ :: _, _ | ⟨.identifier _, _⟩ :: _, _ | ⟨.mark .closing, _⟩ :: _, _
      | ⟨.mark .comma, _⟩ :: _, _ | ⟨.mark (.operator _), _⟩ :: _, _ => rfl
      | ⟨.mark .opening, _⟩ :: _, hrest => exact absurd rfl (hrest _ rfl).1
    | call name arguments =>
      obtain ⟨position, _, rfl, hafter⟩ := exists_placed_cons htokens
      obtain ⟨position', _, rfl, hinside⟩ := exists_placed_cons hafter
      obtain ⟨inner, position'', _, rfl, hinner, hnil⟩ := exists_placed hinside
      cases List.map_eq_nil_iff.1 hnil
      have hread := arguments.readArguments_eq room
        ((inner ++ ⟨.mark .closing, position''⟩ :: rest).length + 1) hinner position'' rest
        (by simp only [List.length_append, List.length_cons]; omega)
      simp only [List.cons_append, List.append_assoc, List.nil_append, Operand.overrun?,
        unlessOverrun_map_two, readOperand_succ, hread, unlessOverrun_bind]
      rfl
    | group inner =>
      obtain ⟨position, _, rfl, hinside⟩ := exists_placed_cons htokens
      obtain ⟨between, position', _, rfl, hinner, hnil⟩ := exists_placed hinside
      cases List.map_eq_nil_iff.1 hnil
      have hread := inner.readChain_eq room hinner
        (stops_closing Operator.multiplicative position' rest)
      rw [readOperations_of_stops (stops_closing _ _ _), ← readFormula_eq] at hread
      simp only [List.cons_append, List.append_assoc, List.nil_append, Operand.overrun?,
        unlessOverrun_map_one, readOperand_succ, hread, unlessOverrun_bind]
      rfl
    | signed sign operand =>
      obtain ⟨position, inner, rfl, hinner⟩ := exists_placed_cons htokens
      simp only [List.cons_append, Operand.overrun?, unlessOverrun_map_one, readOperand_succ,
        Sign.sign?_operator, operand.readOperand_eq room hinner hrest, unlessOverrun_bind]
      rfl

/-- Reading a chain that starts with a term goes on after the term. -/
theorem Term.readChain_eq (term : Term) (room : ℕ) {least : ℕ}
    {placed rest : List PlacedToken} (hleast : least ≤ Operator.multiplicative)
    (htokens : placed.map PlacedToken.token = term.tokens)
    (hrest : Stops (Operator.multiplicative + 1) rest) :
    readChain room least (placed ++ rest) =
      unlessOverrun (term.overrun? room) (placed ++ rest)
        (readOperations (room - term.operators) least term.formula rest) := by
  cases term with
  | operand only =>
    simp only [readChain, only.readOperand_eq room htokens hrest, unlessOverrun_bind]
    rfl
  | operation left op tight right =>
    obtain ⟨before, position, after, rfl, hleft, hright⟩ := exists_placed htokens
    have hlt : op.precedence < Operator.multiplicative + 1 := Nat.lt_succ_of_le (Nat.le_of_eq tight)
    have hchain (room : ℕ) : readChain room (op.precedence + 1) (after ++ rest) =
        unlessOverrun (right.overrun? room) (after ++ rest) (.ok (right.formula, rest)) := by
      simp only [readChain, right.readOperand_eq room hright hrest, unlessOverrun_bind]
      congr 1
      exact readOperations_of_stops (tight ▸ hrest) room right.formula
    have hread := readChain_operation (Nat.le_trans hleast (Nat.le_of_eq tight.symm))
      (left.readChain_eq room hleast hleft (stops_operator hlt position (after ++ rest)))
      hchain right.overrun?_zero
    simpa only [List.append_assoc, List.cons_append, Term.overrun?, Term.operators,
      Term.formula, ← hleft, List.length_map, Nat.sub_sub] using hread

/-- Reading a chain that starts with a formula goes on after the formula. -/
theorem Expression.readChain_eq (expression : Expression) (room : ℕ)
    {placed rest : List PlacedToken}
    (htokens : placed.map PlacedToken.token = expression.tokens)
    (hrest : Stops Operator.multiplicative rest) :
    readChain room Operator.additive (placed ++ rest) =
      unlessOverrun (expression.overrun? room) (placed ++ rest)
        (readOperations (room - expression.operators) Operator.additive
          expression.formula rest) := by
  cases expression with
  | term only =>
    exact only.readChain_eq room (by decide) htokens (hrest.mono (Nat.le_succ _))
  | operation left op loose right =>
    obtain ⟨before, position, after, rfl, hleft, hright⟩ := exists_placed htokens
    have hlt : op.precedence < Operator.multiplicative := loose ▸ by decide
    have hchain (room : ℕ) : readChain room (op.precedence + 1) (after ++ rest) =
        unlessOverrun (right.overrun? room) (after ++ rest) (.ok (right.formula, rest)) := by
      rw [right.readChain_eq room hlt hright (hrest.mono (Nat.le_succ _))]
      congr 1
      exact readOperations_of_stops (loose ▸ hrest) _ right.formula
    have hread := readChain_operation (Nat.le_of_eq loose.symm)
      (left.readChain_eq room hleft (stops_operator hlt position (after ++ rest)))
      hchain right.overrun?_zero
    simpa only [List.append_assoc, List.cons_append, Expression.overrun?,
      Expression.operators, Expression.formula, ← hleft, List.length_map, Nat.sub_sub] using hread

/-- The tokens of arguments are read as their formulas, unless they overrun the room. -/
theorem Arguments.readArguments_eq (arguments : Arguments) (room bound : ℕ)
    {placed : List PlacedToken}
    (htokens : placed.map PlacedToken.token = arguments.tokens) (position : ℕ)
    (rest : List PlacedToken) (hbound : placed.length < bound) :
    readArguments (readFormula room) bound (placed ++ ⟨.mark .closing, position⟩ :: rest) =
      unlessOverrun (arguments.overrun? room) (placed ++ ⟨.mark .closing, position⟩ :: rest)
        (.ok (arguments.formulas, ⟨.mark .closing, position⟩ :: rest)) := by
  obtain ⟨bound, rfl⟩ := Nat.exists_eq_succ_of_ne_zero (Nat.ne_zero_of_lt hbound)
  cases arguments with
  | last argument =>
    have hread := argument.readChain_eq room htokens
      (stops_closing Operator.multiplicative position rest)
    rw [readOperations_of_stops (stops_closing _ _ _), ← readFormula_eq] at hread
    simp only [readArguments, hread, unlessOverrun_bind]
    rfl
  | more argument others =>
    obtain ⟨before, position', after, rfl, hargument, hothers⟩ := exists_placed htokens
    have hfirst := argument.readChain_eq room hargument
      (stops_comma Operator.multiplicative position'
        (after ++ ⟨.mark .closing, position⟩ :: rest))
    rw [readOperations_of_stops (stops_comma _ _ _), ← readFormula_eq] at hfirst
    have hread := others.readArguments_eq room bound hothers position rest
      (by simp only [List.length_append, List.length_cons] at hbound; omega)
    have hsplit (tail : List PlacedToken) : before ++ ⟨.mark .comma, position'⟩ :: tail =
        (before ++ [⟨.mark .comma, position'⟩]) ++ tail := by simp
    have hlength : argument.tokens.length + 1 =
        (before ++ [(⟨.mark .comma, position'⟩ : PlacedToken)]).length := by simp [← hargument]
    simp only [List.append_assoc, List.cons_append, readArguments, hfirst, unlessOverrun_bind,
      Arguments.overrun?, unlessOverrun_or]
    congr 1
    rw [hsplit, hlength, unlessOverrun_map]
    change readArguments (readFormula room) bound _ >>= _ = _
    rw [hread, unlessOverrun_bind]
    rfl

end

end Grammar

end Calculator
