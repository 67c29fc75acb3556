import Calculator.Proofs.Reading

/-!
# Looking one token ahead

Whether reading succeeds or is refused, it leaves a suffix of the tokens it was given, and what
it did depends on no token after the first one it leaves. So tokens that differ only after a next
token are read alike for as long as this next token is left. The induction is on the room; the
tokens in front of the next one are arbitrary, since reading goes on between them.
-/

namespace Calculator.Formula

variable {α β : Type}

/-- The tokens that a reading leaves, whether it succeeds or is refused. -/
def leftover : Except Refusal (Reading α) → List PlacedToken
  | .ok reading => reading.2
  | .error refusal => refusal.rest

/-- The reading with other tokens left. -/
def leaving (rest : List PlacedToken) : Except Refusal (Reading α) → Except Refusal (Reading α)
  | .ok reading => .ok (reading.1, rest)
  | .error refusal => .error ⟨refusal.expected, rest⟩

section Leftover

/-- Reading on leaves a suffix if both steps do. -/
theorem leftover_bind {first : Except Refusal (Reading α)}
    {second : Reading α → Except Refusal (Reading β)} {tokens : List PlacedToken}
    (hfirst : leftover first <:+ tokens)
    (hsecond : ∀ value rest, leftover (second (value, rest)) <:+ rest) :
    leftover (first >>= second) <:+ tokens := by
  cases first with
  | error refusal => exact hfirst
  | ok reading => exact (hsecond reading.1 reading.2).trans hfirst

/-- A parenthesis closed or missing leaves a suffix. -/
theorem leftover_afterClosing (expected : Expectation) (value : α) (tokens : List PlacedToken) :
    leftover (do return (value, ← afterClosing expected tokens)) <:+ tokens := by
  unfold afterClosing
  split
  · exact List.suffix_cons _ _
  · exact List.suffix_rfl

/-- What is read after an argument: the others if there is a comma, and nothing otherwise. -/
def readOthers (formula : List PlacedToken → Except Refusal (Reading Formula)) (bound : ℕ)
    (argument : Formula) : List PlacedToken → Except Refusal (Reading (List Formula))
  | ⟨.mark .comma, _⟩ :: rest => do
    let (others, rest) ← readArguments formula bound rest
    return (argument :: others, rest)
  | rest => return ([argument], rest)

/-- Arguments are the first one and the others after it. -/
theorem readArguments_succ (formula : List PlacedToken → Except Refusal (Reading Formula))
    (bound : ℕ) (tokens : List PlacedToken) :
    readArguments formula (bound + 1) tokens =
      formula tokens >>= fun reading => readOthers formula bound reading.1 reading.2 := by
  rw [readArguments]
  congr 1
  funext ⟨argument, rest⟩
  match rest with
  | [] => rfl
  | ⟨.number _, _⟩ :: _ | ⟨.identifier _, _⟩ :: _ | ⟨.mark .opening, _⟩ :: _
  | ⟨.mark .closing, _⟩ :: _ | ⟨.mark .comma, _⟩ :: _ | ⟨.mark (.operator _), _⟩ :: _ => rfl

/-- No argument is read after anything but a comma. -/
theorem readOthers_of_ne {first : PlacedToken} (h : first.token ≠ .mark .comma)
    (formula : List PlacedToken → Except Refusal (Reading Formula)) (bound : ℕ)
    (argument : Formula) (rest : List PlacedToken) :
    readOthers formula bound argument (first :: rest) = .ok ([argument], first :: rest) := by
  unfold readOthers
  split
  · rename_i heq
    cases heq
    exact absurd rfl h
  · rfl

/-- The arguments after an argument leave a suffix if arguments do. -/
theorem leftover_readOthers {formula : List PlacedToken → Except Refusal (Reading Formula)}
    {bound : ℕ} (h : ∀ tokens, leftover (readArguments formula bound tokens) <:+ tokens)
    (argument : Formula) (tokens : List PlacedToken) :
    leftover (readOthers formula bound argument tokens) <:+ tokens := by
  unfold readOthers
  split
  · refine (leftover_bind (h _) fun others rest => ?_).trans (List.suffix_cons _ _)
    exact List.suffix_rfl
  · exact List.suffix_rfl

/-- Arguments leave a suffix if formulas do. -/
theorem leftover_readArguments {formula : List PlacedToken → Except Refusal (Reading Formula)}
    (hformula : ∀ tokens, leftover (formula tokens) <:+ tokens) (bound : ℕ)
    (tokens : List PlacedToken) :
    leftover (readArguments formula bound tokens) <:+ tokens := by
  induction bound generalizing tokens with
  | zero => exact List.suffix_rfl
  | succ bound ih =>
    rw [readArguments_succ]
    exact leftover_bind (hformula tokens) fun argument rest => leftover_readOthers ih argument rest

/-- A chain leaves a suffix if operands and operations do. -/
theorem leftover_readChain {room : ℕ}
    (hoperand : ∀ tokens, leftover (readOperand room tokens) <:+ tokens)
    (hoperations : ∀ least first tokens,
      leftover (readOperations room least first tokens) <:+ tokens)
    (least : ℕ) (tokens : List PlacedToken) :
    leftover (readChain room least tokens) <:+ tokens :=
  leftover_bind (hoperand tokens) fun first rest => hoperations least first rest

/-- A name without a parenthesis opening right after it is a variable. -/
theorem readOperand_identifier {first : PlacedToken} (h : first.token ≠ .mark .opening)
    (room : ℕ) (name : String) (position : ℕ) (rest : List PlacedToken) :
    readOperand (room + 1) (⟨.identifier name, position⟩ :: first :: rest) =
      .ok (.variable name, first :: rest) := by
  match first with
  | ⟨.mark .opening, _⟩ => exact absurd rfl h
  | ⟨.number _, _⟩ | ⟨.identifier _, _⟩ | ⟨.mark .closing, _⟩ | ⟨.mark .comma, _⟩
  | ⟨.mark (.operator _), _⟩ => rfl

/-- An operand with a level for it leaves what stands after its first token, or less, or it is
refused at that token, whatever stands after it. -/
theorem leftover_readOperand_cons {room : ℕ}
    (hoperand : ∀ tokens, leftover (readOperand room tokens) <:+ tokens)
    (hoperations : ∀ least first tokens,
      leftover (readOperations room least first tokens) <:+ tokens)
    (next : PlacedToken) (back : List PlacedToken) :
    leftover (readOperand (room + 1) (next :: back)) <:+ back ∨
      ∀ back, readOperand (room + 1) (next :: back) = .error ⟨.operand, next :: back⟩ := by
  have hformula := leftover_readChain hoperand hoperations Operator.additive
  rw [← readFormula_eq] at hformula
  match next with
  | ⟨.number value, position⟩ => exact .inl (List.suffix_rfl)
  | ⟨.identifier name, position⟩ =>
    left
    cases back with
    | nil => exact List.suffix_rfl
    | cons first back =>
      by_cases hcalled : first.token = .mark .opening
      · obtain ⟨_, position'⟩ := first
        cases hcalled
        rw [readOperand_succ]
        refine (leftover_bind (leftover_readArguments hformula _ _) fun arguments rest => ?_).trans
          (List.suffix_cons _ _)
        exact leftover_afterClosing _ _ _
      · rw [readOperand_identifier hcalled]
        exact List.suffix_rfl
  | ⟨.mark .opening, position⟩ =>
    left
    rw [readOperand_succ]
    exact leftover_bind (hformula back) fun inner rest => leftover_afterClosing _ _ _
  | ⟨.mark (.operator op), position⟩ =>
    cases hsign : op.sign? with
    | none =>
      right
      intro back
      rw [readOperand_succ]
      simp only [hsign]
    | some sign =>
      left
      rw [readOperand_succ]
      simp only [hsign]
      exact leftover_bind (hoperand back) fun inner rest => List.suffix_rfl
  | ⟨.mark .closing, position⟩ => exact .inr fun back => rfl
  | ⟨.mark .comma, position⟩ => exact .inr fun back => rfl

/-- A token ends operations, or it is an operator that goes on with them. -/
theorem loose_or_tight (least : ℕ) (first : PlacedToken) :
    (∀ op, first.token = .mark (.operator op) → op.precedence < least) ∨
      ∃ op, first.token = .mark (.operator op) ∧ least ≤ op.precedence := by
  by_cases h : ∃ op, first.token = .mark (.operator op) ∧ least ≤ op.precedence
  · exact .inr h
  · exact .inl fun op hop => Nat.lt_of_not_le fun hle => h ⟨op, hop, hle⟩

/-- No operation is read at a token that ends them. -/
theorem readOperations_of_loose {least : ℕ} {first : PlacedToken}
    (h : ∀ op, first.token = .mark (.operator op) → op.precedence < least) (room : ℕ)
    (formula : Formula) (rest : List PlacedToken) :
    readOperations room least formula (first :: rest) = .ok (formula, first :: rest) := by
  match first with
  | ⟨.number _, _⟩ | ⟨.identifier _, _⟩ | ⟨.mark .opening, _⟩ | ⟨.mark .closing, _⟩
  | ⟨.mark .comma, _⟩ => cases room <;> rfl
  | ⟨.mark (.operator op), _⟩ =>
    have hloose := h op rfl
    cases room <;> simp only [readOperations, if_pos hloose] <;> rfl

/-- Operations that go on with an operator leave what stands after it, or less, if operands and
operations with one level less leave a suffix. -/
theorem leftover_readOperations_of_tight {room : ℕ}
    (hpred : ∀ room', room = room' + 1 →
      (∀ tokens, leftover (readOperand room' tokens) <:+ tokens) ∧
        ∀ least first tokens, leftover (readOperations room' least first tokens) <:+ tokens)
    {least : ℕ} {op : Operator} (h : least ≤ op.precedence) (formula : Formula)
    (position : ℕ) (rest : List PlacedToken) :
    leftover (readOperations room least formula (⟨.mark (.operator op), position⟩ :: rest)) <:+
      rest := by
  cases room with
  | zero =>
    rw [readOperations_zero h]
    exact List.suffix_rfl
  | succ room =>
    obtain ⟨hoperand, hoperations⟩ := hpred room rfl
    rw [readOperations_succ h]
    exact leftover_bind (leftover_readChain hoperand hoperations _ _)
      fun right rest => hoperations least _ rest

/-- Operations leave a suffix if operands and operations with one level less do. -/
theorem leftover_readOperations_of_pred {room : ℕ}
    (hpred : ∀ room', room = room' + 1 →
      (∀ tokens, leftover (readOperand room' tokens) <:+ tokens) ∧
        ∀ least first tokens, leftover (readOperations room' least first tokens) <:+ tokens)
    (least : ℕ) (formula : Formula) (tokens : List PlacedToken) :
    leftover (readOperations room least formula tokens) <:+ tokens := by
  cases tokens with
  | nil => cases room <;> exact List.suffix_rfl
  | cons first rest =>
    obtain hloose | ⟨op, hop, htight⟩ := loose_or_tight least first
    · rw [readOperations_of_loose hloose]
      exact List.suffix_rfl
    · obtain ⟨_, position⟩ := first
      cases hop
      exact (leftover_readOperations_of_tight hpred htight formula position rest).trans
        (List.suffix_cons _ _)

/-- Whatever is read within a room, a suffix is left. -/
theorem leftover_suffix (room : ℕ) :
    (∀ tokens, leftover (readOperand room tokens) <:+ tokens) ∧
      ∀ least first tokens, leftover (readOperations room least first tokens) <:+ tokens := by
  refine forall_room (fun room => ∀ tokens, leftover (readOperand room tokens) <:+ tokens)
    (fun room => ∀ least first tokens, leftover (readOperations room least first tokens) <:+ tokens)
    (fun tokens => List.suffix_rfl) ?_ (fun _ => leftover_readOperations_of_pred) room
  intro room hoperand hoperations tokens
  cases tokens with
  | nil => exact List.suffix_rfl
  | cons next back =>
    obtain hless | hrefused := leftover_readOperand_cons hoperand hoperations next back
    · exact hless.trans (List.suffix_cons _ _)
    · rw [hrefused]
      exact List.suffix_rfl

/-- Reading a chain leaves a suffix. -/
theorem leftover_readChain_suffix (room least : ℕ) (tokens : List PlacedToken) :
    leftover (readChain room least tokens) <:+ tokens :=
  leftover_readChain (leftover_suffix room).1 (leftover_suffix room).2 least tokens

end Leftover

/-- As long as a reading leaves the next token and what stands after it, another one does the
same and leaves this token and what stands after it there. -/
def Follows (next : PlacedToken) (back back' : List PlacedToken)
    (reading reading' : Except Refusal (Reading α)) : Prop :=
  ∀ middle, leftover reading = middle ++ next :: back →
    reading' = leaving (middle ++ next :: back') reading

section Follows

variable {next : PlacedToken} {back back' : List PlacedToken}

/-- Nothing is claimed where the next token is taken. -/
theorem Follows.of_suffix {reading reading' : Except Refusal (Reading α)}
    (h : leftover reading <:+ back) : Follows next back back' reading reading' := by
  intro middle hleft
  have hlength := h.length_le
  rw [hleft, List.length_append, List.length_cons] at hlength
  omega

/-- Readings that end before the next token. -/
theorem Follows.ok (value : α) (middle : List PlacedToken) :
    Follows next back back' (.ok (value, middle ++ next :: back))
      (.ok (value, middle ++ next :: back')) := by
  intro middle' hleft
  obtain rfl := List.append_cancel_right hleft
  rfl

/-- Refusals at or before the next token. -/
theorem Follows.error (expected : Expectation) (middle : List PlacedToken) :
    Follows (α := α) next back back' (.error ⟨expected, middle ++ next :: back⟩)
      (.error ⟨expected, middle ++ next :: back'⟩) := by
  intro middle' hleft
  obtain rfl := List.append_cancel_right hleft
  rfl

/-- Going on after readings that follow one another. -/
theorem Follows.bind {first first' : Except Refusal (Reading α)}
    {second second' : Reading α → Except Refusal (Reading β)}
    (hfirst : Follows next back back' first first')
    (hsuffix : ∀ value rest, leftover (second (value, rest)) <:+ rest)
    (hsecond : ∀ value middle, first = .ok (value, middle ++ next :: back) →
      Follows next back back' (second (value, middle ++ next :: back))
        (second' (value, middle ++ next :: back'))) :
    Follows next back back' (first >>= second) (first' >>= second') := by
  intro middle hleft
  cases first with
  | error refusal =>
    rw [hfirst middle hleft]
    rfl
  | ok reading =>
    obtain ⟨value, rest⟩ := reading
    -- What is left in the end is left by the first step as well.
    obtain ⟨between, hrest⟩ := hsuffix value rest
    change leftover (second (value, rest)) = _ at hleft
    rw [hleft, ← List.append_assoc] at hrest
    subst hrest
    rw [hfirst (between ++ middle) rfl]
    exact hsecond value (between ++ middle) rfl middle hleft

/-- A parenthesis that does not close is refused. -/
theorem afterClosing_cons {first : PlacedToken} (h : first.token ≠ .mark .closing)
    (expected : Expectation) (rest : List PlacedToken) :
    afterClosing expected (first :: rest) = .error ⟨expected, first :: rest⟩ := by
  unfold afterClosing
  split
  · rename_i heq
    cases heq
    exact absurd rfl h
  · rfl

/-- A parenthesis that has to close is looked for in the same place. -/
theorem follows_afterClosing (expected : Expectation) (value : α) (front : List PlacedToken) :
    Follows next back back'
      (do return (value, ← afterClosing expected (front ++ next :: back)))
      (do return (value, ← afterClosing expected (front ++ next :: back'))) := by
  cases front with
  | nil =>
    by_cases hclosing : next.token = .mark .closing
    · obtain ⟨_, position⟩ := next
      cases hclosing
      exact Follows.of_suffix List.suffix_rfl
    · simp only [List.nil_append, afterClosing_cons hclosing]
      exact Follows.error expected []
  | cons first front =>
    by_cases hclosing : first.token = .mark .closing
    · obtain ⟨_, position⟩ := first
      cases hclosing
      exact Follows.ok value front
    · simp only [List.cons_append, afterClosing_cons hclosing]
      exact Follows.error expected (first :: front)

/-- Operands are read alike within a room. -/
def OperandsFollow (next : PlacedToken) (back back' : List PlacedToken) (room : ℕ) : Prop :=
  ∀ front, Follows next back back' (readOperand room (front ++ next :: back))
    (readOperand room (front ++ next :: back'))

/-- Operations are read alike within a room. -/
def OperationsFollow (next : PlacedToken) (back back' : List PlacedToken) (room : ℕ) : Prop :=
  ∀ least first front, Follows next back back'
    (readOperations room least first (front ++ next :: back))
    (readOperations room least first (front ++ next :: back'))

/-- Chains are read alike if operands and operations are. -/
theorem follows_readChain {room : ℕ} (hoperands : OperandsFollow next back back' room)
    (hoperations : OperationsFollow next back back' room) (least : ℕ)
    (front : List PlacedToken) :
    Follows next back back' (readChain room least (front ++ next :: back))
      (readChain room least (front ++ next :: back')) :=
  (hoperands front).bind (fun first rest => (leftover_suffix room).2 least first rest)
    fun first middle _ => hoperations least first middle

/-- Arguments are read alike if chains are, and if there are bounds enough for both. -/
theorem follows_readArguments {room : ℕ} (hoperands : OperandsFollow next back back' room)
    (hoperations : OperationsFollow next back back' room) {bound bound' : ℕ}
    {front : List PlacedToken} (hbound : (front ++ next :: back).length < bound)
    (hbound' : (front ++ next :: back').length < bound') :
    Follows next back back' (readArguments (readFormula room) bound (front ++ next :: back))
      (readArguments (readFormula room) bound' (front ++ next :: back')) := by
  have hall (bound : ℕ) := leftover_readArguments
    (leftover_readChain_suffix room Operator.additive) bound
  rw [← readFormula_eq] at hall
  induction bound generalizing bound' front with
  | zero => exact absurd hbound (Nat.not_lt_zero _)
  | succ bound ih =>
    cases bound' with
    | zero => exact absurd hbound' (Nat.not_lt_zero _)
    | succ bound' =>
      rw [readArguments_succ, readArguments_succ]
      refine (follows_readChain hoperands hoperations Operator.additive front).bind
        (fun argument rest => leftover_readOthers (hall bound) argument rest)
        fun argument middle hargument => ?_
      have hless : middle.length ≤ front.length := by
        have hsuffix := leftover_readChain_suffix room Operator.additive (front ++ next :: back)
        rw [hargument] at hsuffix
        have hlength := hsuffix.length_le
        simp only [leftover, List.length_append] at hlength
        omega
      simp only [List.length_append, List.length_cons] at hbound hbound'
      dsimp only
      cases middle with
      | nil =>
        by_cases hcomma : next.token = .mark .comma
        · obtain ⟨_, position⟩ := next
          cases hcomma
          exact Follows.of_suffix (leftover_bind (hall bound back) fun _ _ => List.suffix_rfl)
        · simp only [List.nil_append, readOthers_of_ne hcomma]
          exact Follows.ok _ []
      | cons first middle =>
        by_cases hcomma : first.token = .mark .comma
        · obtain ⟨_, position⟩ := first
          cases hcomma
          rw [List.length_cons] at hless
          have hothers : Follows next back back'
              (readArguments (readFormula room) bound (middle ++ next :: back))
              (readArguments (readFormula room) bound' (middle ++ next :: back')) :=
            ih (by simp only [List.length_append, List.length_cons]; omega)
              (by simp only [List.length_append, List.length_cons]; omega)
          exact hothers.bind (fun _ _ => List.suffix_rfl) fun others middle _ => Follows.ok _ middle
        · simp only [List.cons_append, readOthers_of_ne hcomma]
          exact Follows.ok _ (first :: middle)

/-- An operand is read alike if what is inside it is, with one level less. -/
theorem operandsFollow_succ {room : ℕ} (hoperands : OperandsFollow next back back' room)
    (hoperations : OperationsFollow next back back' room) :
    OperandsFollow next back back' (room + 1) := by
  have hformula := follows_readChain hoperands hoperations Operator.additive
  have hall (bound : ℕ) := leftover_readArguments
    (leftover_readChain_suffix room Operator.additive) bound
  rw [← readFormula_eq] at hformula hall
  intro front
  match front with
  | [] =>
    obtain ⟨hoperand, hoperation⟩ := leftover_suffix room
    obtain hless | hrefused := leftover_readOperand_cons hoperand hoperation next back
    · exact Follows.of_suffix hless
    · rw [List.nil_append, List.nil_append, hrefused, hrefused]
      exact Follows.error .operand []
  | ⟨.number value, position⟩ :: front => exact Follows.ok _ front
  | [⟨.identifier name, position⟩] =>
    -- Whether the name is called is decided by the next token, which is taken if it is.
    by_cases hcalled : next.token = .mark .opening
    · obtain ⟨_, position'⟩ := next
      cases hcalled
      refine Follows.of_suffix ?_
      simp only [List.cons_append, List.nil_append, readOperand_succ]
      exact leftover_bind (hall _ back) fun arguments rest => leftover_afterClosing _ _ _
    · simp only [List.cons_append, List.nil_append, readOperand_identifier hcalled]
      exact Follows.ok _ []
  | ⟨.identifier name, position⟩ :: first :: front =>
    by_cases hcalled : first.token = .mark .opening
    · obtain ⟨_, position'⟩ := first
      cases hcalled
      simp only [List.cons_append, readOperand_succ]
      exact (follows_readArguments hoperands hoperations (Nat.lt_succ_self _)
        (Nat.lt_succ_self _)).bind (fun arguments rest => leftover_afterClosing _ _ _)
        fun arguments middle _ => follows_afterClosing _ _ middle
    · simp only [List.cons_append, readOperand_identifier hcalled]
      exact Follows.ok _ (first :: front)
  | ⟨.mark .opening, position⟩ :: front =>
    simp only [List.cons_append, readOperand_succ]
    exact (hformula front).bind (fun inner rest => leftover_afterClosing _ _ _)
      fun inner middle _ => follows_afterClosing _ _ middle
  | ⟨.mark (.operator op), position⟩ :: front =>
    simp only [List.cons_append, readOperand_succ]
    cases hsign : op.sign? with
    | none => exact Follows.error .operand (⟨.mark (.operator op), position⟩ :: front)
    | some sign =>
      exact (hoperands front).bind (fun inner rest => List.suffix_rfl)
        fun inner middle _ => Follows.ok _ middle
  | ⟨.mark .closing, position⟩ :: front =>
    exact Follows.error .operand (⟨.mark .closing, position⟩ :: front)
  | ⟨.mark .comma, position⟩ :: front =>
    exact Follows.error .operand (⟨.mark .comma, position⟩ :: front)

/-- Operations are read alike if operands and operations with one level less are. -/
theorem operationsFollow_of_pred {room : ℕ}
    (hpred : ∀ room', room = room' + 1 →
      OperandsFollow next back back' room' ∧ OperationsFollow next back back' room') :
    OperationsFollow next back back' room := by
  intro least formula front
  -- The first token ends the operations, or it is an operator that goes on with them.
  cases front with
  | nil =>
    obtain hloose | ⟨op, hop, htight⟩ := loose_or_tight least next
    · simp only [List.nil_append, readOperations_of_loose hloose]
      exact Follows.ok formula []
    · obtain ⟨_, position⟩ := next
      cases hop
      exact Follows.of_suffix (leftover_readOperations_of_tight
        (fun room' _ => leftover_suffix room') htight formula position back)
  | cons first front =>
    obtain hloose | ⟨op, hop, htight⟩ := loose_or_tight least first
    · simp only [List.cons_append, readOperations_of_loose hloose]
      exact Follows.ok formula (first :: front)
    · obtain ⟨_, position⟩ := first
      cases hop
      cases room with
      | zero =>
        simp only [List.cons_append, readOperations_zero htight]
        exact Follows.error .shallower front
      | succ room =>
        obtain ⟨hoperands, hoperations⟩ := hpred room rfl
        simp only [List.cons_append, readOperations_succ htight]
        exact (follows_readChain hoperands hoperations _ front).bind
          (fun right rest => (leftover_suffix room).2 least _ rest)
          fun right middle _ => hoperations least _ middle

/-- Tokens that differ only after a next token are read alike as long as it is left. -/
theorem follows (next : PlacedToken) (back back' : List PlacedToken) (room : ℕ) :
    OperandsFollow next back back' room ∧ OperationsFollow next back back' room :=
  forall_room (OperandsFollow next back back') (OperationsFollow next back back')
    (fun front => Follows.error .shallower front) (fun _ => operandsFollow_succ)
    (fun _ => operationsFollow_of_pred) room

end Follows

/-- A refusal to read all tokens that leaves a next token is a refusal of all tokens that are the
same up to this one. -/
theorem readAll_eq_error_of_same_front {front back : List PlacedToken} {next : PlacedToken}
    {expected : Expectation}
    (h : readAll (front ++ next :: back) = .error ⟨expected, next :: back⟩)
    (back' : List PlacedToken) :
    readAll (front ++ next :: back') = .error ⟨expected, next :: back'⟩ := by
  obtain ⟨hoperands, hoperations⟩ := follows next back back' nestingLimit
  have hfollows := follows_readChain hoperands hoperations Operator.additive front
  rw [← readFormula_eq] at hfollows
  unfold readAll at h ⊢
  cases hread : readFormula nestingLimit (front ++ next :: back) with
  | error refusal =>
    rw [hread] at h
    cases h
    rw [hfollows [] (by rw [hread]; rfl), hread]
    rfl
  | ok reading =>
    obtain ⟨formula, rest⟩ := reading
    rw [hread] at h
    cases rest with
    | nil => cases h
    | cons first rest =>
      cases h
      rw [hfollows [] (by rw [hread]; rfl), hread]
      rfl

end Calculator.Formula
