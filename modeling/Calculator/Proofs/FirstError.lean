import Calculator.Proofs.Acceptance
import Calculator.Proofs.Completion
import Calculator.Proofs.Lookahead

/-!
# The first token that does not fit

A syntax error names the first token that makes its text unfixable. What stands before this
token is the beginning of some sentence of the grammar. With the token it is not, unless the
sentence would only nest too deep. The end of the input counts as a token here, which may stand
after a whole sentence only.
-/

namespace Calculator

open Grammar

namespace Grammar

/-- Tokens, and possibly the end of the input after them, can be completed to a sentence of the
grammar with the end of the input after it. -/
def IsViable (word : List (Option Token)) : Prop :=
  ∃ (more : List (Option Token)) (tokens : List Token) (formula : Formula),
    Derives tokens formula ∧ word ++ more = tokens.map some ++ [none]

/-- Tokens that begin a word with the end of the input after it begin the word. -/
theorem exists_append_of_map_some {front tokens : List Token} {more : List (Option Token)}
    (h : front.map some ++ more = tokens.map some ++ [none]) :
    ∃ tail, tokens = front ++ tail ∧ more = tail.map some ++ [none] := by
  induction front generalizing tokens with
  | nil => exact ⟨tokens, rfl, h⟩
  | cons first front ih =>
    cases tokens with
    | nil => cases h
    | cons first' tokens =>
      obtain ⟨hfirst, hothers⟩ := List.cons.inj h
      obtain ⟨tail, rfl, hmore⟩ := ih hothers
      exact ⟨tail, by rw [Option.some.inj hfirst, List.cons_append], hmore⟩

/-- What begins a derived formula can be completed. -/
theorem isViable_of_begins {placed rest : List PlacedToken} {expression : Expression}
    (h : Begins placed rest expression.tokens) :
    ∃ front, placed = front ++ rest ∧ IsViable (front.map fun token => some token.token) := by
  obtain ⟨derived, more, ⟨front, rfl, rfl⟩, htokens⟩ := h
  refine ⟨front, rfl, more.map some ++ [none], expression.tokens, expression.formula,
    ⟨expression, rfl, rfl⟩, ?_⟩
  simp [htokens, Function.comp_def]

/-- What is derived in full can be completed. -/
theorem isViable_of_taken {placed rest : List PlacedToken} {expression : Expression}
    (h : Taken placed rest expression.tokens) :
    ∃ front, placed = front ++ rest ∧ IsViable (front.map fun token => some token.token) :=
  isViable_of_begins (by simpa using h.begins (Begins.refl rest []))

end Grammar

namespace Formula

/-- What is read before a refusal can be completed to a sentence. -/
theorem isViable_of_readAll {placed : List PlacedToken} {refusal : Refusal}
    (h : readAll placed = .error refusal) :
    ∃ front, placed = front ++ refusal.rest ∧
      IsViable (front.map fun token => some token.token) := by
  obtain hrefused | ⟨⟨formula, rest⟩, hread, hgo⟩ := of_bind_eq_error h
  · obtain ⟨expression, hbegun⟩ := formulasBegun _ hrefused
    exact isViable_of_begins hbegun
  · obtain ⟨expression, htaken, -, -⟩ := formulasDerived _ hread
    dsimp only at hgo
    split at hgo
    · cases hgo
    · cases hgo
      exact isViable_of_taken htaken

/-- A sentence is refused only because it nests too deep. -/
theorem eq_shallower_of_derives {placed : List PlacedToken} {formula : Formula}
    (hderives : Derives (placed.map PlacedToken.token) formula) {refusal : Refusal}
    (h : readAll placed = .error refusal) : refusal.expected = .shallower := by
  obtain ⟨derivation, htokens, -⟩ := hderives
  rw [readAll_eq_of_tokens derivation htokens.symm] at h
  cases hplace : derivation.overrun? nestingLimit with
  | none =>
    rw [hplace] at h
    cases h
  | some count =>
    rw [hplace] at h
    cases h
    rfl

/-- With the token that was refused, what was read cannot be completed to a sentence, unless it
would only nest too deep. -/
theorem not_isViable_of_readAll {front : List PlacedToken} {refusal : Refusal}
    (h : readAll (front ++ refusal.rest) = .error refusal)
    (hexpected : refusal.expected ≠ .shallower) :
    ¬ IsViable ((front.map fun token => some token.token) ++
      [refusal.rest.head?.map PlacedToken.token]) := by
  rintro ⟨more, tokens, formula, hderives, hword⟩
  obtain ⟨expected, rest⟩ := refusal
  rw [← Function.comp_def some, ← List.map_map, List.append_assoc] at hword
  obtain ⟨tail, rfl, hmore⟩ := exists_append_of_map_some hword
  cases rest with
  | nil =>
    -- The end of the input comes after the whole sentence, which would not be refused.
    cases tail with
    | nil =>
      rw [List.append_nil] at h hderives
      exact hexpected (eq_shallower_of_derives hderives h)
    | cons next tail => cases hmore
  | cons next back =>
    -- The sentence goes on with the same token, and would be refused there as well.
    cases tail with
    | nil => cases hmore
    | cons next' tail =>
      obtain ⟨rfl, -⟩ := List.cons.inj hmore |>.imp_left Option.some.inj
      let placed := tail.map fun token => (⟨token, 0⟩ : PlacedToken)
      have hsame := readAll_eq_error_of_same_front h placed
      have htokens : (front ++ next :: placed).map PlacedToken.token =
          front.map PlacedToken.token ++ next.token :: tail := by
        simp [placed, Function.comp_def]
      have hderived : Derives ((front ++ next :: placed).map PlacedToken.token) formula := by
        rwa [htokens]
      have hshallow := eq_shallower_of_derives hderived hsame
      exact hexpected hshallow

/-- A syntax error is found at the first token, or the end of the input, that makes the text
unfixable. What stands before it can be completed to a sentence of the grammar, and with it that
is no longer so, unless the error is that the text nests too deep. -/
theorem parse_error_at_first_misfit {text : String} {stream : TokenStream}
    (htokens : tokenize text = .ok stream) {error : ParseError}
    (h : parse text = .error error) :
    ∃ (front rest : List PlacedToken) (misfit : SyntaxError), error = .syntactic misfit ∧
      stream.tokens = front ++ rest ∧ misfit.found = rest.head?.map PlacedToken.token ∧
      misfit.position = (rest.head?.map PlacedToken.position).getD stream.size ∧
      IsViable (front.map fun token => some token.token) ∧
      (¬ misfit.IsTooDeep →
        ¬ IsViable ((front.map fun token => some token.token) ++ [misfit.found])) := by
  rw [parse_of_tokenize htokens] at h
  cases hread : readAll stream.tokens with
  | ok formula =>
    rw [hread] at h
    cases h
  | error refusal =>
    rw [hread] at h
    cases h
    obtain ⟨front, hfront, hviable⟩ := isViable_of_readAll hread
    refine ⟨front, refusal.rest, _, rfl, hfront, rfl, rfl, hviable, fun hshallow => ?_⟩
    rw [SyntaxError.isTooDeep_iff] at hshallow
    exact not_isViable_of_readAll (hfront ▸ hread) hshallow

/-- The tokens of a call whose argument is followed by a name. -/
def brokenCall : List PlacedToken :=
  [⟨.identifier "f", 0⟩, ⟨.mark .opening, 1⟩, ⟨.identifier "x", 2⟩, ⟨.identifier "y", 4⟩]

/-- A call's argument can be followed by a comma or the closing parenthesis, but by no name. -/
theorem parse_error_at_first_misfit_call :
    tokenize "f(x y" = .ok ⟨brokenCall, 5⟩ ∧
      parse "f(x y" = .error (.syntactic ⟨some (.identifier "y"), 4, .argumentEnd⟩) ∧
      IsViable [some (.identifier "f"), some (.mark .opening), some (.identifier "x")] ∧
      ¬ IsViable [some (.identifier "f"), some (.mark .opening), some (.identifier "x"),
        some (.identifier "y")] := by
  have htokens : tokenize "f(x y" = .ok ⟨brokenCall, 5⟩ := by
    have hread : (tokenize "f(x y").toOption = some ⟨brokenCall, 5⟩ := by decide +kernel
    cases hresult : tokenize "f(x y" with
    | error defect =>
      rw [hresult] at hread
      cases hread
    | ok stream =>
      rw [hresult] at hread
      exact congrArg Except.ok (Option.some.inj hread)
  have herror : parse "f(x y" =
      .error (.syntactic ⟨some (.identifier "y"), 4, .argumentEnd⟩) := by
    rw [parse_of_tokenize htokens]
    rfl
  obtain ⟨front, rest, misfit, hmisfit, hsplit, -, hposition, hviable, hunfixable⟩ :=
    parse_error_at_first_misfit htokens herror
  cases hmisfit
  have hall : brokenCall = front ++ rest := hsplit
  have hfront : front = brokenCall.take front.length := by rw [hall, List.take_left]
  have hrest : rest = brokenCall.drop front.length := by rw [hall, List.drop_left]
  have hplace : ∀ count ≤ 4,
      4 = ((brokenCall.drop count).head?.map PlacedToken.position).getD 5 → count = 3 := by decide
  have hlength : front.length ≤ 4 := by
    change front.length ≤ brokenCall.length
    rw [hall, List.length_append]
    exact Nat.le_add_right _ _
  have hcount := hplace _ hlength (hrest ▸ hposition)
  rw [hfront, hcount] at hviable hunfixable
  exact ⟨htokens, herror, hviable, hunfixable (by rw [SyntaxError.isTooDeep_iff]; decide)⟩

end Formula

end Calculator
