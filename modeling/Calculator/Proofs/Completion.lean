import Calculator.Proofs.Derivation

/-!
# Completing what was read

Where reading is refused, what was read before can still become what was to be read: the grammar
derives words that begin with it. A pending sign or operator is completed by an operand, an
argument list and a parenthesis by closing them, and a chain goes on with the operator that was
read last. The induction is on the room, as for what is read in full.
-/

namespace Calculator.Grammar

open Formula

/-- The tokens up to a rest are the beginning of a word. -/
def Begins (tokens rest : List PlacedToken) (word : List Token) : Prop :=
  ∃ derived more, Taken tokens rest derived ∧ word = derived ++ more

/-- Before the first token nothing has been read, and every word begins with nothing. -/
theorem Begins.refl (tokens : List PlacedToken) (word : List Token) :
    Begins tokens tokens word :=
  ⟨[], word, Taken.refl tokens, rfl⟩

/-- What is read in full stands in front of what begins after it. -/
theorem Taken.begins {tokens middle rest : List PlacedToken} {derived word : List Token}
    (hderived : Taken tokens middle derived) (h : Begins middle rest word) :
    Begins tokens rest (derived ++ word) := by
  obtain ⟨begun, more, hbegun, rfl⟩ := h
  exact ⟨derived ++ begun, more, hderived.append hbegun, (List.append_assoc _ _ _).symm⟩

/-- A token in front stands in front of what begins after it. -/
theorem Begins.cons {tokens rest : List PlacedToken} {word : List Token} (token : Token)
    (position : ℕ) (h : Begins tokens rest word) :
    Begins (⟨token, position⟩ :: tokens) rest (token :: word) :=
  ((Taken.refl tokens).cons token position).begins h

/-- What begins a word begins a longer one. -/
theorem Begins.append {tokens rest : List PlacedToken} {word : List Token}
    (h : Begins tokens rest word) (more : List Token) : Begins tokens rest (word ++ more) := by
  obtain ⟨derived, more', hderived, rfl⟩ := h
  exact ⟨derived, more' ++ more, hderived, List.append_assoc _ _ _⟩

/-- Whatever is refused as an operand within a room begins one. -/
def OperandsBegun (room : ℕ) : Prop :=
  ∀ ⦃tokens refusal⦄, readOperand room tokens = .error refusal →
    ∃ operand : Operand, Begins tokens refusal.rest operand.tokens

/-- Whatever is refused after a term within a room begins what extends the term. -/
def TermsBegun (room : ℕ) : Prop :=
  ∀ (term : Term) ⦃tokens refusal⦄,
    readOperations room Operator.multiplicative term.formula tokens = .error refusal →
      ∃ (longer : Term) (added : List Token), Begins tokens refusal.rest added ∧
        longer.tokens = term.tokens ++ added

/-- Whatever is refused after a formula within a room begins what extends the formula, provided
that no tight operator follows a loose one's term. -/
def ExpressionsBegun (room : ℕ) : Prop :=
  ∀ (expression : Expression) ⦃tokens refusal⦄,
    ((∃ term, expression = .term term) ∨ Ends Operator.multiplicative tokens) →
    readOperations room Operator.additive expression.formula tokens = .error refusal →
      ∃ (longer : Expression) (added : List Token), Begins tokens refusal.rest added ∧
        longer.tokens = expression.tokens ++ added

/-- Whatever is refused as a formula within a room begins one. -/
def FormulasBegun (room : ℕ) : Prop :=
  ∀ ⦃tokens refusal⦄, readFormula room tokens = .error refusal →
    ∃ expression : Expression, Begins tokens refusal.rest expression.tokens

/-- A failure of two steps is one of the first, or one of the second on a result of the first. -/
theorem of_bind_eq_error {ε α β : Type} {first : Except ε α} {second : α → Except ε β}
    {error : ε} (h : first >>= second = .error error) :
    first = .error error ∨ ∃ middle, first = .ok middle ∧ second middle = .error error := by
  cases first with
  | error other =>
    cases h
    exact .inl rfl
  | ok middle => exact .inr ⟨middle, rfl, h⟩

/-- The right operand of an operator is refused, for want of a level or when it is read. -/
def RightRefused (room least : ℕ) (tokens : List PlacedToken) (refusal : Refusal) : Prop :=
  (room = 0 ∧ refusal.rest = tokens) ∨
    ∃ room', room = room' + 1 ∧ readChain room' least tokens = .error refusal

/-- Operations are refused after an operator that binds tightly enough: in its right operand, or
in the operations after that. -/
theorem readOperations_eq_error {room least : ℕ} {first : Formula} {tokens : List PlacedToken}
    {refusal : Refusal} (h : readOperations room least first tokens = .error refusal) :
    ∃ op position tokens', least ≤ op.precedence ∧
      tokens = ⟨.mark (.operator op), position⟩ :: tokens' ∧
      (RightRefused room (op.precedence + 1) tokens' refusal ∨
        ∃ room' right rest', room = room' + 1 ∧
          readChain room' (op.precedence + 1) tokens' = .ok (right, rest') ∧
          readOperations room' least (.binary first op.symbol right) rest' = .error refusal) := by
  match tokens with
  | [] => cases room <;> cases h
  | ⟨.number _, _⟩ :: _ | ⟨.identifier _, _⟩ :: _ | ⟨.mark .opening, _⟩ :: _
  | ⟨.mark .closing, _⟩ :: _ | ⟨.mark .comma, _⟩ :: _ => cases room <;> cases h
  | ⟨.mark (.operator op), position⟩ :: tokens' =>
    by_cases hloose : op.precedence < least
    · cases room <;> simp only [readOperations, if_pos hloose] at h <;> cases h
    · have htight := Nat.not_lt.1 hloose
      refine ⟨op, position, tokens', htight, rfl, ?_⟩
      cases room with
      | zero =>
        rw [readOperations_zero htight] at h
        cases h
        exact .inl (.inl ⟨rfl, rfl⟩)
      | succ room =>
        rw [readOperations_succ htight] at h
        obtain hright | ⟨⟨right, rest'⟩, hright, hgo⟩ := of_bind_eq_error h
        · exact .inl (.inr ⟨room, rfl, hright⟩)
        · exact .inr ⟨room, right, rest', rfl, hright, hgo⟩

/-- Nothing is refused after the right operand of a tight operator. -/
theorem readOperations_ne_error_of_tight {room least : ℕ} {first : Formula}
    {tokens : List PlacedToken} {refusal : Refusal} (hleast : Operator.multiplicative < least) :
    readOperations room least first tokens ≠ .error refusal := by
  intro h
  obtain ⟨op, _, _, htight, _⟩ := readOperations_eq_error h
  have := op.precedence_le_multiplicative
  omega

/-- The right operand of a tight operator is derived as an operand. -/
theorem operand_of_readChain {room least : ℕ} {formula : Formula}
    {tokens rest : List PlacedToken} (hleast : Operator.multiplicative < least)
    (h : readChain room least tokens = .ok (formula, rest)) :
    ∃ operand : Operand, Taken tokens rest operand.tokens ∧ operand.formula = formula := by
  obtain ⟨⟨first, middle⟩, hfirst, hgo⟩ := exists_of_bind_eq_ok h
  obtain ⟨rfl, rfl⟩ := readOperations_eq_ok_of_tight hleast hgo
  exact (derived room).1 hfirst

/-- The right operand of a loose operator is derived as a term. -/
theorem term_of_readChain {room : ℕ} {formula : Formula} {tokens rest : List PlacedToken}
    (h : readChain room Operator.multiplicative tokens = .ok (formula, rest)) :
    ∃ term : Term, Taken tokens rest term.tokens ∧ term.formula = formula ∧
      Ends Operator.multiplicative rest := by
  obtain ⟨⟨first, middle⟩, hfirst, hgo⟩ := exists_of_bind_eq_ok h
  obtain ⟨operand, htaken, rfl⟩ := (derived room).1 hfirst
  obtain ⟨term, added, hadded, htokens, hformula, hends⟩ :=
    (derived room).2.1 (.operand operand) hgo
  exact ⟨term, htokens ▸ htaken.append hadded, hformula, hends⟩

/-- A right operand of a tight operator that is refused begins an operand. -/
theorem RightRefused.operand {room least : ℕ} {tokens : List PlacedToken} {refusal : Refusal}
    (hleast : Operator.multiplicative < least) (h : RightRefused room least tokens refusal)
    (hpred : ∀ room', room = room' + 1 → OperandsBegun room') :
    ∃ right : Operand, Begins tokens refusal.rest right.tokens := by
  obtain ⟨-, hrest⟩ | ⟨room', hroom, hchain⟩ := h
  · exact ⟨.identifier "x", hrest ▸ Begins.refl _ _⟩
  · obtain hoperand | ⟨_, _, hgo⟩ := of_bind_eq_error hchain
    · exact hpred room' hroom hoperand
    · exact absurd hgo (readOperations_ne_error_of_tight hleast)

/-- A right operand of a loose operator that is refused begins a term. -/
theorem RightRefused.term {room : ℕ} {tokens : List PlacedToken} {refusal : Refusal}
    (h : RightRefused room Operator.multiplicative tokens refusal)
    (hpred : ∀ room', room = room' + 1 → OperandsBegun room' ∧ TermsBegun room') :
    ∃ right : Term, Begins tokens refusal.rest right.tokens := by
  obtain ⟨-, hrest⟩ | ⟨room', hroom, hchain⟩ := h
  · exact ⟨.operand (.identifier "x"), hrest ▸ Begins.refl _ _⟩
  · obtain hoperand | ⟨⟨first, middle⟩, hfirst, hgo⟩ := of_bind_eq_error hchain
    · obtain ⟨operand, hbegun⟩ := (hpred room' hroom).1 hoperand
      exact ⟨.operand operand, hbegun⟩
    · obtain ⟨operand, htaken, rfl⟩ := (derived room').1 hfirst
      obtain ⟨term, added, hbegun, htokens⟩ := (hpred room' hroom).2 (.operand operand) hgo
      exact ⟨term, htokens ▸ htaken.begins hbegun⟩

/-- What is refused after a term begins an extension of it if the same holds of operands and
terms with one level less. -/
theorem termsBegun_of_pred {room : ℕ}
    (hpred : ∀ room', room = room' + 1 → OperandsBegun room' ∧ TermsBegun room') :
    TermsBegun room := by
  intro term tokens refusal h
  obtain ⟨op, position, tokens', htight, rfl, hcases⟩ := readOperations_eq_error h
  have hprecedence := Operator.precedence_eq_multiplicative (Nat.not_lt.2 htight)
  have hleast : Operator.multiplicative < op.precedence + 1 := by omega
  obtain hright | ⟨room', right, rest', rfl, hright, hgo⟩ := hcases
  · obtain ⟨operand, hbegun⟩ := hright.operand hleast fun room' hroom => (hpred room' hroom).1
    exact ⟨.operation term op hprecedence operand, _, hbegun.cons _ _, rfl⟩
  · obtain ⟨operand, htaken, rfl⟩ := operand_of_readChain hleast hright
    obtain ⟨longer, added, hbegun, htokens⟩ :=
      (hpred room' rfl).2 (.operation term op hprecedence operand) hgo
    refine ⟨longer, .mark (.operator op) :: (operand.tokens ++ added), ?_, ?_⟩
    · exact (htaken.begins hbegun).cons _ _
    · simp [htokens, Term.tokens]

/-- What is refused after a formula begins an extension of it if the same holds of operands,
terms and formulas with one level less. -/
theorem expressionsBegun_of_pred {room : ℕ}
    (hpred : ∀ room', room = room' + 1 →
      OperandsBegun room' ∧ TermsBegun room' ∧ ExpressionsBegun room') :
    ExpressionsBegun room := by
  intro expression tokens refusal hfollows h
  obtain ⟨op, position, tokens', -, rfl, hcases⟩ := readOperations_eq_error h
  by_cases hloose : op.precedence < Operator.multiplicative
  · -- A loose operator takes the whole term after it, or what there is of it.
    have hprecedence := Operator.precedence_eq_additive hloose
    rw [hprecedence] at hcases
    obtain hright | ⟨room', right, rest', rfl, hright, hgo⟩ := hcases
    · obtain ⟨term, hbegun⟩ := hright.term fun room' hroom =>
        ⟨(hpred room' hroom).1, (hpred room' hroom).2.1⟩
      exact ⟨.operation expression op hprecedence term, _, hbegun.cons _ _, rfl⟩
    · obtain ⟨term, htaken, rfl, hends⟩ := term_of_readChain hright
      obtain ⟨longer, added, hbegun, htokens⟩ :=
        (hpred room' rfl).2.2 (.operation expression op hprecedence term) (.inr hends) hgo
      refine ⟨longer, .mark (.operator op) :: (term.tokens ++ added), ?_, ?_⟩
      · exact (htaken.begins hbegun).cons _ _
      · simp [htokens, Expression.tokens]
  · -- A tight operator goes on with the only term there is.
    have hprecedence := Operator.precedence_eq_multiplicative hloose
    have hleast : Operator.multiplicative < op.precedence + 1 := by omega
    obtain ⟨term, rfl⟩ | hends := hfollows
    · obtain hright | ⟨room', right, rest', rfl, hright, hgo⟩ := hcases
      · obtain ⟨operand, hbegun⟩ := hright.operand hleast fun room' hroom => (hpred room' hroom).1
        exact ⟨.term (.operation term op hprecedence operand), _, hbegun.cons _ _, rfl⟩
      · obtain ⟨operand, htaken, rfl⟩ := operand_of_readChain hleast hright
        obtain ⟨longer, added, hbegun, htokens⟩ := (hpred room' rfl).2.2
          (.term (.operation term op hprecedence operand)) (.inl ⟨_, rfl⟩) hgo
        refine ⟨longer, .mark (.operator op) :: (operand.tokens ++ added), ?_, ?_⟩
        · exact (htaken.begins hbegun).cons _ _
        · simp [htokens, Expression.tokens, Term.tokens]
    · exact absurd (hends _ rfl op rfl) hloose

/-- What is refused as a formula begins one if the same holds of operands and operations. -/
theorem formulasBegun_of_operands {room : ℕ} (hoperands : OperandsBegun room)
    (hexpressions : ExpressionsBegun room) : FormulasBegun room := by
  intro tokens refusal h
  obtain hfirst | ⟨⟨first, middle⟩, hfirst, hgo⟩ := of_bind_eq_error h
  · obtain ⟨operand, hbegun⟩ := hoperands hfirst
    exact ⟨.term (.operand operand), hbegun⟩
  · obtain ⟨operand, htaken, rfl⟩ := (derived room).1 hfirst
    obtain ⟨longer, added, hbegun, htokens⟩ :=
      hexpressions (.term (.operand operand)) (.inl ⟨_, rfl⟩) hgo
    exact ⟨longer, htokens ▸ htaken.begins hbegun⟩

/-- What is refused as arguments begins arguments if the same holds of formulas. -/
theorem argumentsBegun_of_formulas {room : ℕ} (hformulas : FormulasBegun room) {bound : ℕ}
    {tokens : List PlacedToken} {refusal : Refusal}
    (h : readArguments (readFormula room) bound tokens = .error refusal) :
    ∃ arguments : Arguments, Begins tokens refusal.rest arguments.tokens := by
  induction bound generalizing tokens with
  | zero =>
    cases h
    exact ⟨.last (.term (.operand (.identifier "x"))), Begins.refl _ _⟩
  | succ bound ih =>
    obtain hargument | ⟨⟨argument, middle⟩, hargument, hgo⟩ := of_bind_eq_error h
    · obtain ⟨expression, hbegun⟩ := hformulas hargument
      exact ⟨.last expression, hbegun⟩
    · obtain ⟨expression, htaken, rfl, _⟩ := formulasDerived room hargument
      dsimp only at hgo
      split at hgo
      · rename_i position middle'
        obtain hothers | ⟨_, _, hdone⟩ := of_bind_eq_error hgo
        · obtain ⟨arguments, hbegun⟩ := ih hothers
          exact ⟨.more expression arguments, htaken.begins (hbegun.cons _ _)⟩
        · cases hdone
      · cases hgo

/-- A parenthesis that has to close is refused where it was looked for. -/
theorem rest_of_afterClosing {expected : Expectation} {tokens : List PlacedToken}
    {refusal : Refusal} (h : afterClosing expected tokens = .error refusal) :
    refusal.rest = tokens := by
  unfold afterClosing at h
  split at h
  · cases h
  · cases h
    rfl

/-- What is refused as an operand begins one if the same holds of what is inside it, with one
level less. -/
theorem operandsBegun_succ {room : ℕ} (hoperands : OperandsBegun room)
    (hformulas : FormulasBegun room) : OperandsBegun (room + 1) := by
  intro tokens refusal h
  rw [readOperand_succ] at h
  split at h
  · cases h
  · rename_i name position position' rest'
    obtain harguments | ⟨⟨arguments, middle⟩, harguments, hgo⟩ := of_bind_eq_error h
    · obtain ⟨begun, hbegun⟩ := argumentsBegun_of_formulas hformulas harguments
      exact ⟨.call name begun, ((hbegun.append _).cons _ _).cons _ _⟩
    · obtain ⟨derived, htaken, rfl⟩ := argumentsDerived_of_formulas (formulasDerived room)
        harguments
      obtain hclosing | ⟨_, _, hdone⟩ := of_bind_eq_error hgo
      · rw [rest_of_afterClosing hclosing]
        have hbegun := htaken.begins (Begins.refl middle [.mark .closing])
        exact ⟨.call name derived, (hbegun.cons _ _).cons _ _⟩
      · cases hdone
  · cases h
  · rename_i position rest'
    obtain hinner | ⟨⟨inner, middle⟩, hinner, hgo⟩ := of_bind_eq_error h
    · obtain ⟨begun, hbegun⟩ := hformulas hinner
      exact ⟨.group begun, (hbegun.append _).cons _ _⟩
    · obtain ⟨expression, htaken, rfl, _⟩ := formulasDerived room hinner
      obtain hclosing | ⟨_, _, hdone⟩ := of_bind_eq_error hgo
      · rw [rest_of_afterClosing hclosing]
        have hbegun := htaken.begins (Begins.refl middle [.mark .closing])
        exact ⟨.group expression, hbegun.cons _ _⟩
      · cases hdone
  · rename_i op position rest'
    split at h
    · rename_i sign hsign
      obtain hinner | ⟨_, _, hdone⟩ := of_bind_eq_error h
      · obtain ⟨operand, hbegun⟩ := hoperands hinner
        rw [Sign.operator_of_sign? hsign]
        exact ⟨.signed sign operand, hbegun.cons _ _⟩
      · cases hdone
    · cases h
      exact ⟨.identifier "x", Begins.refl _ _⟩
  · cases h
    exact ⟨.identifier "x", Begins.refl _ _⟩

/-- Without a level left an operand is refused at its first token. -/
theorem operandsBegun_zero : OperandsBegun 0 := by
  intro tokens refusal h
  cases h
  exact ⟨.identifier "x", Begins.refl _ _⟩

/-- What is refused within any room begins what was to be read. -/
theorem begun (room : ℕ) :
    OperandsBegun room ∧ TermsBegun room ∧ ExpressionsBegun room := by
  refine forall_room OperandsBegun (fun room => TermsBegun room ∧ ExpressionsBegun room)
    operandsBegun_zero ?_ ?_ room
  · intro room hoperands hoperations
    exact operandsBegun_succ hoperands (formulasBegun_of_operands hoperands hoperations.2)
  · intro room hpred
    exact ⟨termsBegun_of_pred fun room' hroom => (hpred room' hroom).imp_right And.left,
      expressionsBegun_of_pred hpred⟩

/-- What is refused as a formula within any room begins one. -/
theorem formulasBegun (room : ℕ) : FormulasBegun room :=
  formulasBegun_of_operands (begun room).1 (begun room).2.2

end Calculator.Grammar
