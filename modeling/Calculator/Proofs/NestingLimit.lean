import Calculator.Proofs.Acceptance
import Calculator.Proofs.Completion
import Calculator.Proofs.Lookahead
import Calculator.Proofs.Occurrences

/-!
# The limit of nesting

A formula is read if every operand stands at a level that there is, and it is refused at the
leftmost operand that stands at the first level too many.

Tokens that derive no formula have no levels. That they do not nest too deep is read off the
readers: a refusal for want of a level has used up all of them, each by a sign, an operator or an
opening parenthesis of its own.
-/

namespace Calculator.Formula

open Grammar

/-- The signs, operators and opening parentheses among tokens. -/
def deepenings (tokens : List PlacedToken) : ℕ :=
  (tokens.map PlacedToken.token).countP Token.deepens

/-- What is left of tokens has no more signs, operators and opening parentheses. -/
theorem deepenings_le {rest tokens : List PlacedToken} (h : rest <:+ tokens) :
    deepenings rest ≤ deepenings tokens :=
  (h.map PlacedToken.token).sublist.countP_le

/-- A token in front adds a sign, operator or opening parenthesis, or nothing. -/
theorem deepenings_cons (first : PlacedToken) (tokens : List PlacedToken) :
    deepenings (first :: tokens) = deepenings tokens + if first.token.deepens then 1 else 0 := by
  simp only [deepenings, List.map_cons, List.countP_cons]

/-- If a refusal is for want of a level, each level of the room was used up by a token. -/
def Refusal.Spends (refusal : Refusal) (room : ℕ) (tokens : List PlacedToken) : Prop :=
  refusal.expected = .shallower → room + deepenings refusal.rest ≤ deepenings tokens

/-- A refusal for another reason uses up no level. -/
theorem Refusal.Spends.of_ne {expected : Expectation} (h : expected ≠ .shallower)
    (rest : List PlacedToken) (room : ℕ) (tokens : List PlacedToken) :
    Refusal.Spends ⟨expected, rest⟩ room tokens :=
  fun hexpected => absurd hexpected h

/-- What a refusal uses up of the tokens that are left it uses up of all of them. -/
theorem Refusal.Spends.of_suffix {refusal : Refusal} {room : ℕ} {rest tokens : List PlacedToken}
    (h : refusal.Spends room rest) (hsuffix : rest <:+ tokens) : refusal.Spends room tokens :=
  fun hexpected => Nat.le_trans (h hexpected) (deepenings_le hsuffix)

/-- A sign, operator or opening parenthesis in front uses up a level more. -/
theorem Refusal.Spends.cons {refusal : Refusal} {room : ℕ} {tokens : List PlacedToken}
    (h : refusal.Spends room tokens) {first : PlacedToken} (hfirst : first.token.deepens = true) :
    refusal.Spends (room + 1) (first :: tokens) := by
  intro hexpected
  have hspent := h hexpected
  rw [deepenings_cons, if_pos hfirst]
  omega

/-- An empty room is used up by whatever is left. -/
theorem Refusal.Spends.zero {refusal : Refusal} {tokens : List PlacedToken}
    (h : refusal.rest <:+ tokens) : refusal.Spends 0 tokens := by
  intro _
  rw [Nat.zero_add]
  exact deepenings_le h

/-- Operands are refused within a room for want of a level only after using up all of them. -/
def OperandsSpend (room : ℕ) : Prop :=
  ∀ ⦃tokens refusal⦄, readOperand room tokens = .error refusal → refusal.Spends room tokens

/-- Operations are refused within a room for want of a level only after using up all of them. -/
def OperationsSpend (room : ℕ) : Prop :=
  ∀ ⦃least first tokens refusal⦄, readOperations room least first tokens = .error refusal →
    refusal.Spends room tokens

/-- Chains use up all levels if operands and operations do. -/
theorem spends_of_readChain {room : ℕ} (hoperands : OperandsSpend room)
    (hoperations : OperationsSpend room) {least : ℕ} {tokens : List PlacedToken}
    {refusal : Refusal} (h : readChain room least tokens = .error refusal) :
    refusal.Spends room tokens := by
  obtain hfirst | ⟨⟨first, middle⟩, hfirst, hgo⟩ := of_bind_eq_error h
  · exact hoperands hfirst
  · have hsuffix := (leftover_suffix room).1 tokens
    rw [hfirst] at hsuffix
    exact (hoperations hgo).of_suffix hsuffix

/-- Operations use up all levels if operands and operations with one level less do. -/
theorem operationsSpend_of_pred {room : ℕ}
    (hpred : ∀ room', room = room' + 1 → OperandsSpend room' ∧ OperationsSpend room') :
    OperationsSpend room := by
  intro least first tokens refusal h
  obtain ⟨op, position, tokens', htight, rfl, hcases⟩ := readOperations_eq_error h
  obtain (⟨rfl, hrest⟩ | ⟨room', rfl, hchain⟩) | ⟨room', right, rest', rfl, hright, hgo⟩ := hcases
  · exact .zero (hrest ▸ List.suffix_cons _ _)
  · obtain ⟨hoperands, hoperations⟩ := hpred room' rfl
    exact (spends_of_readChain hoperands hoperations hchain).cons rfl
  · have hsuffix := leftover_readChain_suffix room' (op.precedence + 1) tokens'
    rw [hright] at hsuffix
    exact (((hpred room' rfl).2 hgo).of_suffix hsuffix).cons rfl

/-- Arguments use up all levels if formulas do. -/
theorem spends_of_readArguments {room : ℕ}
    (hformula : ∀ ⦃tokens refusal⦄, readFormula room tokens = .error refusal →
      refusal.Spends room tokens)
    {bound : ℕ} {tokens : List PlacedToken} {refusal : Refusal}
    (h : readArguments (readFormula room) bound tokens = .error refusal) :
    refusal.Spends room tokens := by
  induction bound generalizing tokens with
  | zero =>
    cases h
    exact .of_ne (by decide) _ _ _
  | succ bound ih =>
    rw [readArguments_succ] at h
    obtain hargument | ⟨⟨argument, middle⟩, hargument, hgo⟩ := of_bind_eq_error h
    · exact hformula hargument
    · have hsuffix := leftover_readChain_suffix room Operator.additive tokens
      rw [← readFormula_eq, hargument] at hsuffix
      dsimp only [leftover, readOthers] at hsuffix hgo
      split at hgo
      · obtain hothers | ⟨_, _, hdone⟩ := of_bind_eq_error hgo
        · exact (ih hothers).of_suffix ((List.suffix_cons _ _).trans hsuffix)
        · cases hdone
      · cases hgo

/-- A parenthesis that has to close is not refused for want of a level. -/
theorem spends_of_afterClosing {expected : Expectation} (hexpected : expected ≠ .shallower)
    {tokens : List PlacedToken} {refusal : Refusal}
    (h : afterClosing expected tokens = .error refusal) (room : ℕ)
    (tokens' : List PlacedToken) : refusal.Spends room tokens' := by
  unfold afterClosing at h
  split at h
  · cases h
  · cases h
    exact .of_ne hexpected _ _ _

/-- Operands use up all levels if what is inside them does, with one level less. -/
theorem operandsSpend_succ {room : ℕ} (hoperands : OperandsSpend room)
    (hoperations : OperationsSpend room) : OperandsSpend (room + 1) := by
  have hformula ⦃tokens : List PlacedToken⦄ ⦃refusal : Refusal⦄
      (h : readFormula room tokens = .error refusal) : refusal.Spends room tokens :=
    spends_of_readChain hoperands hoperations h
  intro tokens refusal h
  rw [readOperand_succ] at h
  split at h
  · cases h
  · -- The level that the arguments stand deeper is used up by the parenthesis before them.
    rename_i name position position' rest
    obtain harguments | ⟨⟨arguments, middle⟩, harguments, hgo⟩ := of_bind_eq_error h
    · exact ((spends_of_readArguments hformula harguments).cons rfl).of_suffix
        (List.suffix_cons _ _)
    · obtain hclosing | ⟨_, _, hdone⟩ := of_bind_eq_error hgo
      · exact spends_of_afterClosing (by decide) hclosing _ _
      · cases hdone
  · cases h
  · rename_i position rest
    obtain hinner | ⟨⟨inner, middle⟩, hinner, hgo⟩ := of_bind_eq_error h
    · exact (hformula hinner).cons rfl
    · obtain hclosing | ⟨_, _, hdone⟩ := of_bind_eq_error hgo
      · exact spends_of_afterClosing (by decide) hclosing _ _
      · cases hdone
  · rename_i op position rest
    split at h
    · obtain hinner | ⟨_, _, hdone⟩ := of_bind_eq_error h
      · exact (hoperands hinner).cons rfl
      · cases hdone
    · -- An operator that is no sign is refused because an operand is expected.
      cases h
      exact .of_ne (by decide) _ _ _
  · cases h
    exact .of_ne (by decide) _ _ _

/-- Whatever the room, a refusal for want of a level uses up all of it. -/
theorem spend (room : ℕ) : OperandsSpend room ∧ OperationsSpend room := by
  refine forall_room OperandsSpend OperationsSpend ?_ (fun _ => operandsSpend_succ)
    (fun _ => operationsSpend_of_pred) room
  intro tokens refusal h
  cases h
  exact .zero List.suffix_rfl

/-- A formula is refused for want of a level only if it has as many signs, operators and opening
parentheses as there are levels. -/
theorem nestingLimit_le_deepenings {tokens : List PlacedToken} {refusal : Refusal}
    (h : readAll tokens = .error refusal) (hexpected : refusal.expected = .shallower) :
    nestingLimit ≤ deepenings tokens := by
  obtain hread | ⟨⟨formula, rest⟩, hread, hgo⟩ := of_bind_eq_error h
  · obtain ⟨hoperands, hoperations⟩ := spend nestingLimit
    have hspent := spends_of_readChain hoperands hoperations hread hexpected
    omega
  · dsimp only at hgo
    split at hgo
    · cases hgo
    · cases hgo
      cases hexpected

/-- Tokens are refused with the error of a refusal to read them. -/
theorem ofTokens_eq_error {stream : TokenStream} {error : SyntaxError}
    (h : ofTokens stream = .error error) :
    ∃ refusal, readAll stream.tokens = .error refusal ∧ error = refusal.toError stream := by
  unfold ofTokens at h
  cases hread : readAll stream.tokens with
  | ok formula =>
    rw [hread] at h
    cases h
  | error refusal =>
    rw [hread] at h
    cases h
    exact ⟨refusal, rfl, rfl⟩

/-- Tokens that a derivation has are read as its formula if every operand stands at a level that
there is. -/
theorem ofTokens_eq_ok_iff {stream : TokenStream} {derivation : Grammar.Expression}
    (hderived : derivation.tokens = stream.tokens.map PlacedToken.token) (formula : Formula) :
    ofTokens stream = .ok formula ↔ formula = derivation.formula ∧
      ∀ occurrence ∈ derivation.occurrences 0 0, occurrence.level ≤ 255 := by
  have hlevels : derivation.levels ≤ nestingLimit ↔
      ∀ occurrence ∈ derivation.occurrences 0 0, occurrence.level ≤ 255 := by
    simp only [derivation.levels_le_iff 0 0, nestingLimit, Nat.zero_add, Nat.lt_succ_iff]
  unfold ofTokens
  rw [readAll_eq_of_tokens derivation hderived.symm, ← hlevels,
    ← derivation.overrun?_eq_none_iff]
  cases derivation.overrun? nestingLimit with
  | none =>
    simp only [unlessOverrun_none, and_true]
    constructor
    · rintro ⟨⟩
      rfl
    · rintro rfl
      rfl
  | some count =>
    constructor
    · rintro ⟨⟩
    · rintro ⟨_, ⟨⟩⟩

/-- Tokens that a derivation has are refused at the first token of the leftmost operand that
stands at the first level too many, if one stands at a level too many. -/
theorem ofTokens_eq_error_of_level {stream : TokenStream} {derivation : Grammar.Expression}
    (hderived : derivation.tokens = stream.tokens.map PlacedToken.token)
    (hdeep : ∃ occurrence ∈ derivation.occurrences 0 0, 255 < occurrence.level) :
    ∃ first, IsFirstAt 256 (derivation.occurrences 0 0) first ∧ ∃ placed error,
      stream.tokens[first.before]? = some placed ∧
      first.operand.tokens.head? = some placed.token ∧
      ofTokens stream = .error error ∧ error.found = some placed.token ∧
      error.position = placed.position ∧ error.IsTooDeep := by
  obtain ⟨deep, hmem, hlevel⟩ := hdeep
  have hplace := derivation.overrun?_eq_placeAt 0 0 nestingLimit
  cases hoverrun : derivation.overrun? nestingLimit with
  | none =>
    have hlevels := (derivation.overrun?_eq_none_iff _).1 hoverrun
    have hlt := (derivation.levels_le_iff 0 0 _).1 hlevels deep hmem
    simp only [nestingLimit] at hlt
    omega
  | some count =>
    simp only [hoverrun, Option.map_some, Nat.add_zero, Nat.zero_add] at hplace
    obtain ⟨first, hfirst, hbefore⟩ := exists_isFirstAt (derivation.ordered 0 0) hplace.symm
    have hstands := derivation.standsIn_of_mem hfirst.mem
    have hlt := hstands.lt
    rw [hderived, Nat.zero_add, List.length_map] at hlt
    -- What is left at the refusal starts where the operand does.
    have hplaced : stream.tokens[first.before]? = some stream.tokens[first.before] :=
      List.getElem?_eq_getElem hlt
    have hhead := hstands.getElem?
    rw [hderived, List.getElem?_map, hplaced, Option.map_some] at hhead
    have hrest : (stream.tokens.drop count).head? = some stream.tokens[first.before] := by
      rw [List.head?_drop, ← hplaced, hbefore]
    refine ⟨first, hfirst, _, Refusal.toError stream ⟨.shallower, stream.tokens.drop count⟩,
      hplaced, hhead.symm, ?_, ?_, ?_, SyntaxError.isTooDeep_iff.2 rfl⟩
    · unfold ofTokens
      rw [readAll_eq_of_tokens derivation hderived.symm, hoverrun]
      rfl
    · simp only [Refusal.toError, hrest, Option.map_some]
    · simp only [Refusal.toError, hrest, Option.map_some, Option.getD_some]

/-- The limit of nesting is exact. A text is parsed by reading its tokens. Tokens that a
derivation has are read, as the derivation's formula, exactly if every operand stands at level
255 at most, where the levels are counted from 0. Otherwise they are refused because they nest too
deep, at the first token of the leftmost operand at level 256. Any tokens with at most 255
signs, operators and opening parentheses are never refused because they nest too deep. -/
theorem ofTokens_nesting (stream : TokenStream) :
    (∀ text, tokenize text = .ok stream →
      parse text = (ofTokens stream).mapError .syntactic) ∧
    (∀ derivation : Grammar.Expression,
      derivation.tokens = stream.tokens.map PlacedToken.token →
      (∀ formula, ofTokens stream = .ok formula ↔ formula = derivation.formula ∧
        ∀ occurrence ∈ derivation.occurrences 0 0, occurrence.level ≤ 255) ∧
      ((∃ occurrence ∈ derivation.occurrences 0 0, 255 < occurrence.level) →
        ∃ first, IsFirstAt 256 (derivation.occurrences 0 0) first ∧ ∃ placed error,
          stream.tokens[first.before]? = some placed ∧
          first.operand.tokens.head? = some placed.token ∧
          ofTokens stream = .error error ∧ error.found = some placed.token ∧
          error.position = placed.position ∧ error.IsTooDeep)) ∧
    ((stream.tokens.map PlacedToken.token).countP Token.deepens ≤ 255 →
      ∀ error, ofTokens stream = .error error → ¬ error.IsTooDeep) := by
  refine ⟨fun text htokens => parse_of_tokenize htokens, fun derivation hderived =>
    ⟨ofTokens_eq_ok_iff hderived, ofTokens_eq_error_of_level hderived⟩, ?_⟩
  intro hfew error herror hdeep
  obtain ⟨refusal, hread, rfl⟩ := ofTokens_eq_error herror
  have hmany := nestingLimit_le_deepenings hread (SyntaxError.isTooDeep_iff.1 hdeep)
  simp only [nestingLimit, deepenings] at hmany
  omega

/-- A variable under as many signs. -/
def negated : ℕ → Operand
  | 0 => .identifier "x"
  | count + 1 => .signed .minus (negated count)

/-- Signs are written one after the other. -/
theorem spells_negated (count : ℕ) :
    Spells (List.replicate count '-' ++ ['x']) (negated count).tokens := by
  induction count with
  | zero =>
    have hname : isIdentifier "x".toList = true := by decide
    exact Spells.identifier hname
  | succ count ih => exact ih.mark_cons (.operator .subtract)

/-- Every sign stands one level deeper than the one before it. -/
theorem occurrences_negated (count level before : ℕ) :
    (negated count).occurrences level before = (List.range (count + 1)).map fun depth =>
      ⟨negated (count - depth), level + depth, before + depth⟩ := by
  induction count generalizing level before with
  | zero => rfl
  | succ count ih =>
    rw [negated, Operand.occurrences, ih, List.range_succ_eq_map (n := count + 1), List.map_cons,
      List.map_map]
    congr 1
    refine List.map_congr_left fun depth _ => ?_
    simp only [Function.comp_apply, Nat.succ_eq_add_one, Nat.add_sub_add_right, Nat.add_assoc,
      Nat.add_comm 1]

/-- Every sign deepens what is under it. -/
theorem countP_negated (count : ℕ) :
    (negated count).tokens.countP Token.deepens = count := by
  induction count with
  | zero => rfl
  | succ count ih =>
    rw [negated, Operand.tokens, List.countP_cons, ih]
    rfl

/-- A variable under 255 signs stands at the last level there is, and under 256 signs it is
refused. -/
theorem ofTokens_nesting_signs :
    (∃ stream, tokenize (String.ofList (List.replicate 255 '-' ++ ['x'])) = .ok stream ∧
      parse (String.ofList (List.replicate 255 '-' ++ ['x'])) = .ok (negated 255).formula ∧
      ∀ error, ofTokens stream = .error error → ¬ error.IsTooDeep) ∧
    ∃ error, parse (String.ofList (List.replicate 256 '-' ++ ['x'])) =
        .error (.syntactic error) ∧
      error.found = some (.identifier "x") ∧ error.IsTooDeep := by
  have hstream (count : ℕ) : ∃ stream,
      tokenize (String.ofList (List.replicate count '-' ++ ['x'])) = .ok stream ∧
        stream.tokens.map PlacedToken.token = (negated count).tokens := by
    have hspells := spells_negated count
    rw [← String.toList_ofList (l := List.replicate count '-' ++ ['x'])] at hspells
    exact tokenize_of_spells hspells
  constructor
  · obtain ⟨stream, htokens, hderived⟩ := hstream 255
    obtain ⟨hparse, hreading, hfew⟩ := ofTokens_nesting stream
    have hcount : (stream.tokens.map PlacedToken.token).countP Token.deepens = 255 := by
      rw [hderived, countP_negated]
    have hlevels : ∀ occurrence ∈ (negated 255).occurrences 0 0, occurrence.level ≤ 255 := by
      rw [occurrences_negated]
      intro occurrence hmem
      obtain ⟨depth, hdepth, rfl⟩ := List.mem_map.1 hmem
      have hlt := List.mem_range.1 hdepth
      dsimp only
      omega
    have hread := ((hreading (.term (.operand (negated 255))) hderived.symm).1 _).2 ⟨rfl, hlevels⟩
    refine ⟨stream, htokens, ?_, hfew (Nat.le_of_eq hcount)⟩
    rw [hparse _ htokens, hread]
    rfl
  · obtain ⟨stream, htokens, hderived⟩ := hstream 256
    obtain ⟨hparse, hreading, -⟩ := ofTokens_nesting stream
    have hmem : ⟨negated 0, 256, 256⟩ ∈ (negated 256).occurrences 0 0 := by
      rw [occurrences_negated]
      exact List.mem_map.2 ⟨256, List.mem_range.2 (by decide), rfl⟩
    obtain ⟨first, hfirst, placed, error, -, hhead, hrefused, hfound, -, hdeep⟩ :=
      (hreading (.term (.operand (negated 256))) hderived.symm).2 ⟨_, hmem, by decide⟩
    have hvariable : first.operand = negated 0 := by
      have hfirstmem : first ∈ (negated 256).occurrences 0 0 := hfirst.mem
      rw [occurrences_negated] at hfirstmem
      obtain ⟨depth, -, hplace⟩ := List.mem_map.1 hfirstmem
      have hlevel := hfirst.level_eq
      rw [← hplace] at hlevel ⊢
      dsimp only at hlevel ⊢
      congr 1
      omega
    refine ⟨error, ?_, ?_, hdeep⟩
    · rw [hparse _ htokens, hrefused]
      rfl
    · rw [hfound, ← hhead, hvariable]
      rfl

end Calculator.Formula
