import Calculator.Proofs.Reading

/-!
# Deriving what is read

Whatever the readers take from the front of the tokens, the grammar derives. The induction is
on the room. Reading operations extends a derivation: a term by tight operators, a formula by
operators of either kind, where a tight one can only follow while the formula is still a
single term, since the right operand of a loose one has taken all tight ones after it.
-/

namespace Calculator.Grammar

open Formula

/-- The tokens taken from the front, to which a derivation is a witness. -/
def Taken (tokens rest : List PlacedToken) (derived : List Token) : Prop :=
  ∃ taken, tokens = taken ++ rest ∧ taken.map PlacedToken.token = derived

/-- Nothing is taken of tokens left as they are. -/
theorem Taken.refl (tokens : List PlacedToken) : Taken tokens tokens [] :=
  ⟨[], rfl, rfl⟩

/-- What is taken after something taken is taken with it. -/
theorem Taken.append {tokens middle rest : List PlacedToken} {first second : List Token}
    (hfirst : Taken tokens middle first) (hsecond : Taken middle rest second) :
    Taken tokens rest (first ++ second) := by
  obtain ⟨taken, rfl, rfl⟩ := hfirst
  obtain ⟨taken', rfl, rfl⟩ := hsecond
  exact ⟨taken ++ taken', by simp, by simp⟩

/-- A token in front is taken with what is taken after it. -/
theorem Taken.cons {tokens rest : List PlacedToken} {derived : List Token} (token : Token)
    (position : ℕ) (h : Taken tokens rest derived) :
    Taken (⟨token, position⟩ :: tokens) rest (token :: derived) := by
  obtain ⟨taken, rfl, rfl⟩ := h
  exact ⟨⟨token, position⟩ :: taken, rfl, rfl⟩

/-- Operations that bind at least as tightly as `least` end before these tokens. -/
def Ends (least : ℕ) (rest : List PlacedToken) : Prop :=
  ∀ next ∈ rest.head?, ∀ op, next.token = .mark (.operator op) → op.precedence < least

/-- Every operand read within a room is derived. -/
def OperandsDerived (room : ℕ) : Prop :=
  ∀ ⦃tokens rest formula⦄, readOperand room tokens = .ok (formula, rest) →
    ∃ operand : Operand, Taken tokens rest operand.tokens ∧ operand.formula = formula

/-- Every extension of a term by operations read within a room is derived. -/
def TermsExtended (room : ℕ) : Prop :=
  ∀ (term : Term) ⦃tokens rest formula⦄,
    readOperations room Operator.multiplicative term.formula tokens = .ok (formula, rest) →
      ∃ (longer : Term) (added : List Token), Taken tokens rest added ∧
        longer.tokens = term.tokens ++ added ∧ longer.formula = formula ∧
        Ends Operator.multiplicative rest

/-- Every extension of a formula by operations read within a room is derived, provided that no
tight operator follows a loose one's term. -/
def ExpressionsExtended (room : ℕ) : Prop :=
  ∀ (expression : Expression) ⦃tokens rest formula⦄,
    ((∃ term, expression = .term term) ∨ Ends Operator.multiplicative tokens) →
    readOperations room Operator.additive expression.formula tokens = .ok (formula, rest) →
      ∃ (longer : Expression) (added : List Token), Taken tokens rest added ∧
        longer.tokens = expression.tokens ++ added ∧ longer.formula = formula ∧
        Ends Operator.additive rest

/-- Every formula read within a room is derived. -/
def FormulasDerived (room : ℕ) : Prop :=
  ∀ ⦃tokens rest formula⦄, readFormula room tokens = .ok (formula, rest) →
    ∃ expression : Expression, Taken tokens rest expression.tokens ∧
      expression.formula = formula ∧ Ends Operator.additive rest

/-- The operations end, or an operator that binds tightly enough comes first. -/
theorem readOperations_eq_ok {room least : ℕ} {first formula : Formula}
    {tokens rest : List PlacedToken}
    (h : readOperations room least first tokens = .ok (formula, rest)) :
    (Ends least tokens ∧ formula = first ∧ rest = tokens) ∨
      ∃ room' op position tokens' second middle right rest', room = room' + 1 ∧
        least ≤ op.precedence ∧ tokens = ⟨.mark (.operator op), position⟩ :: tokens' ∧
        readOperand room' tokens' = .ok (second, middle) ∧
        readOperations room' (op.precedence + 1) second middle = .ok (right, rest') ∧
        readOperations room' least (.binary first op.symbol right) rest' =
          .ok (formula, rest) := by
  match tokens with
  | [] =>
    left
    cases room <;> cases h <;> simp [Ends]
  | ⟨.number _, _⟩ :: _ | ⟨.identifier _, _⟩ :: _ | ⟨.mark .opening, _⟩ :: _
  | ⟨.mark .closing, _⟩ :: _ | ⟨.mark .comma, _⟩ :: _ =>
    left
    cases room <;> cases h <;> simp [Ends]
  | ⟨.mark (.operator op), position⟩ :: tokens' =>
    by_cases hloose : op.precedence < least
    · left
      cases room <;> simp only [readOperations, if_pos hloose] at h <;> cases h <;>
        simp [Ends, hloose]
    · have htight := Nat.not_lt.1 hloose
      cases room with
      | zero =>
        rw [readOperations_zero htight] at h
        cases h
      | succ room =>
        rw [readOperations_succ htight] at h
        obtain ⟨⟨right, rest'⟩, hchain, hgo⟩ := exists_of_bind_eq_ok h
        obtain ⟨⟨second, middle⟩, hsecond, hright⟩ := exists_of_bind_eq_ok hchain
        exact .inr ⟨room, op, position, tokens', second, middle, right, rest', rfl, htight, rfl,
          hsecond, hright, hgo⟩

/-- Nothing is read after the right operand of a tight operator. -/
theorem readOperations_eq_ok_of_tight {room least : ℕ} {first formula : Formula}
    {tokens rest : List PlacedToken} (hleast : Operator.multiplicative < least)
    (h : readOperations room least first tokens = .ok (formula, rest)) :
    formula = first ∧ rest = tokens := by
  obtain ⟨_, hformula, hrest⟩ | ⟨_, op, _, _, _, _, _, _, _, hop, _⟩ := readOperations_eq_ok h
  · exact ⟨hformula, hrest⟩
  · have := op.precedence_le_multiplicative
    omega

/-- Operations that extend a term are derived if operands and the operations after the first
are, with one level less. -/
theorem termsExtended_of_pred {room : ℕ}
    (hpred : ∀ room', room = room' + 1 → OperandsDerived room' ∧ TermsExtended room') :
    TermsExtended room := by
  intro term tokens rest formula h
  obtain ⟨hends, rfl, rfl⟩ |
      ⟨room', op, position, tokens', second, middle, right, rest', rfl, htight, rfl, hsecond,
        hright, hgo⟩ := readOperations_eq_ok h
  · exact ⟨term, [], Taken.refl _, by simp, rfl, hends⟩
  · obtain ⟨hoperands, hterms⟩ := hpred room' rfl
    have hprecedence := Operator.precedence_eq_multiplicative (Nat.not_lt.2 htight)
    obtain ⟨operand, htaken, rfl⟩ := hoperands hsecond
    obtain ⟨rfl, rfl⟩ := readOperations_eq_ok_of_tight (by omega) hright
    obtain ⟨longer, added, hadded, htokens, hformula, hends⟩ :=
      hterms (.operation term op hprecedence operand) hgo
    refine ⟨longer, .mark (.operator op) :: (operand.tokens ++ added), ?_, ?_, hformula, hends⟩
    · exact (htaken.append hadded).cons _ _
    · simp [htokens, Term.tokens]

/-- Operations that extend a formula are derived if operands and the operations after the
first are, with one level less. -/
theorem expressionsExtended_of_pred {room : ℕ}
    (hpred : ∀ room', room = room' + 1 →
      OperandsDerived room' ∧ TermsExtended room' ∧ ExpressionsExtended room') :
    ExpressionsExtended room := by
  intro expression tokens rest formula hfollows h
  obtain ⟨hends, rfl, rfl⟩ |
      ⟨room', op, position, tokens', second, middle, right, rest', rfl, hleast, rfl, hsecond,
        hright, hgo⟩ := readOperations_eq_ok h
  · exact ⟨expression, [], Taken.refl _, by simp, rfl, hends⟩
  · obtain ⟨hoperands, hterms, hexpressions⟩ := hpred room' rfl
    obtain ⟨operand, htaken, rfl⟩ := hoperands hsecond
    by_cases hloose : op.precedence < Operator.multiplicative
    · -- A loose operator takes the whole term after it.
      have hprecedence := Operator.precedence_eq_additive hloose
      rw [hprecedence] at hright
      obtain ⟨term, factors, hfactors, hterm, rfl, hends⟩ := hterms (.operand operand) hright
      obtain ⟨longer, added, hadded, htokens, hformula, hends⟩ :=
        hexpressions (.operation expression op hprecedence term) (.inr hends) hgo
      refine ⟨longer, .mark (.operator op) :: (term.tokens ++ added), ?_, ?_, hformula, hends⟩
      · rw [hterm]
        exact ((htaken.append hfactors).append hadded).cons _ _
      · simp [htokens, Expression.tokens]
    · -- A tight operator extends the only term there is.
      have hprecedence := Operator.precedence_eq_multiplicative hloose
      obtain ⟨term, rfl⟩ | hends := hfollows
      · obtain ⟨rfl, rfl⟩ := readOperations_eq_ok_of_tight (by omega) hright
        obtain ⟨longer, added, hadded, htokens, hformula, hends⟩ :=
          hexpressions (.term (.operation term op hprecedence operand)) (.inl ⟨_, rfl⟩) hgo
        refine ⟨longer, .mark (.operator op) :: (operand.tokens ++ added), ?_, ?_, hformula, hends⟩
        · exact (htaken.append hadded).cons _ _
        · simp [htokens, Expression.tokens, Term.tokens]
      · exact absurd (hends _ rfl op rfl) hloose

/-- Formulas read within a room are derived if operands and operations are. -/
theorem formulasDerived_of_operands {room : ℕ} (hoperands : OperandsDerived room)
    (hexpressions : ExpressionsExtended room) : FormulasDerived room := by
  intro tokens rest formula h
  obtain ⟨⟨first, middle⟩, hfirst, hgo⟩ := exists_of_bind_eq_ok h
  obtain ⟨operand, htaken, rfl⟩ := hoperands hfirst
  obtain ⟨longer, added, hadded, htokens, hformula, hends⟩ :=
    hexpressions (.term (.operand operand)) (.inl ⟨_, rfl⟩) hgo
  exact ⟨longer, htokens ▸ htaken.append hadded, hformula, hends⟩

/-- Arguments read within a room are derived if formulas are. -/
theorem argumentsDerived_of_formulas {room : ℕ} (hformulas : FormulasDerived room)
    {bound : ℕ} {tokens rest : List PlacedToken} {formulas : List Formula}
    (h : readArguments (readFormula room) bound tokens = .ok (formulas, rest)) :
    ∃ arguments : Arguments, Taken tokens rest arguments.tokens ∧
      arguments.formulas = formulas := by
  induction bound generalizing tokens formulas with
  | zero => cases h
  | succ bound ih =>
    obtain ⟨⟨argument, middle⟩, hargument, hgo⟩ := exists_of_bind_eq_ok h
    obtain ⟨expression, htaken, rfl, _⟩ := hformulas hargument
    dsimp only at hgo
    split at hgo
    · rename_i position middle'
      obtain ⟨⟨others, rest'⟩, hothers, hdone⟩ := exists_of_bind_eq_ok hgo
      cases hdone
      obtain ⟨arguments, hmore, rfl⟩ := ih hothers
      exact ⟨.more expression arguments, htaken.append (hmore.cons _ _), rfl⟩
    · cases hgo
      exact ⟨.last expression, htaken, rfl⟩

/-- No operand is read without a level left. -/
theorem operandsDerived_zero : OperandsDerived 0 := by
  intro tokens rest formula h
  cases h

/-- Operands read within a room are derived if what is inside them is, with one level less. -/
theorem operandsDerived_succ {room : ℕ} (hoperands : OperandsDerived room)
    (hformulas : FormulasDerived room) : OperandsDerived (room + 1) := by
  intro tokens rest formula h
  rw [readOperand_succ] at h
  split at h
  · rename_i value position rest'
    cases h
    exact ⟨.number value, (Taken.refl _).cons _ _, rfl⟩
  · rename_i name position position' rest'
    obtain ⟨⟨arguments, middle⟩, harguments, hgo⟩ := exists_of_bind_eq_ok h
    obtain ⟨after, hclosing, hdone⟩ := exists_of_bind_eq_ok hgo
    cases hdone
    obtain ⟨position'', rfl⟩ := afterClosing_eq_ok_iff.1 hclosing
    obtain ⟨derived, htaken, rfl⟩ := argumentsDerived_of_formulas hformulas harguments
    have hend := (Taken.refl rest).cons (.mark .closing) position''
    exact ⟨.call name derived, ((htaken.append hend).cons _ _).cons _ _, rfl⟩
  · rename_i name position rest' _
    cases h
    exact ⟨.identifier name, (Taken.refl _).cons _ _, rfl⟩
  · rename_i position rest'
    obtain ⟨⟨inner, middle⟩, hinner, hgo⟩ := exists_of_bind_eq_ok h
    obtain ⟨after, hclosing, hdone⟩ := exists_of_bind_eq_ok hgo
    cases hdone
    obtain ⟨position', rfl⟩ := afterClosing_eq_ok_iff.1 hclosing
    obtain ⟨expression, htaken, rfl, _⟩ := hformulas hinner
    have hend := (Taken.refl rest).cons (.mark .closing) position'
    exact ⟨.group expression, (htaken.append hend).cons _ _, rfl⟩
  · rename_i op position rest'
    split at h
    · rename_i sign hsign
      obtain ⟨⟨inner, middle⟩, hinner, hdone⟩ := exists_of_bind_eq_ok h
      cases hdone
      obtain ⟨operand, htaken, rfl⟩ := hoperands hinner
      rw [Sign.operator_of_sign? hsign]
      exact ⟨.signed sign operand, htaken.cons _ _, rfl⟩
    · cases h
  · cases h

/-- Operands and operations read within any room are derived. -/
theorem derived (room : ℕ) :
    OperandsDerived room ∧ TermsExtended room ∧ ExpressionsExtended room := by
  refine forall_room OperandsDerived (fun room => TermsExtended room ∧ ExpressionsExtended room)
    operandsDerived_zero ?_ ?_ room
  · intro room hoperands hoperations
    exact operandsDerived_succ hoperands (formulasDerived_of_operands hoperands hoperations.2)
  · intro room hpred
    exact ⟨termsExtended_of_pred fun room' hroom => (hpred room' hroom).imp_right And.left,
      expressionsExtended_of_pred hpred⟩

/-- Formulas read within any room are derived. -/
theorem formulasDerived (room : ℕ) : FormulasDerived room :=
  formulasDerived_of_operands (derived room).1 (derived room).2.2

end Calculator.Grammar
