import Calculator.Proofs.Derivation
import Calculator.Proofs.Levels
import Calculator.Proofs.Names
import Calculator.Proofs.Spelling

/-!
# What is accepted

Parsing accepts the texts whose tokens the grammar derives, up to the limit of nesting, and
answers with the one formula that they derive. Tokens that derive nothing are refused, and
tokens that derive a formula are refused exactly if they nest too deep.
-/

namespace Calculator

open Grammar

/-- A formula was refused because it nests too deep, as its message says. -/
def SyntaxError.IsTooDeep (error : SyntaxError) : Prop :=
  error.expected.describe = "at most 256 levels of nesting"

/-- Only what expects less nesting says so. -/
theorem SyntaxError.isTooDeep_iff {error : SyntaxError} :
    error.IsTooDeep ↔ error.expected = .shallower := by
  unfold IsTooDeep
  cases error.expected <;> decide

namespace Formula

/-- The tokens of a derivation are read as its formula within any room they do not overrun. -/
theorem readFormula_eq_of_tokens (derivation : Expression) (room : ℕ)
    {placed : List PlacedToken}
    (htokens : placed.map PlacedToken.token = derivation.tokens) :
    readFormula room placed =
      unlessOverrun (derivation.overrun? room) placed (.ok (derivation.formula, [])) := by
  have hread := derivation.readChain_eq room htokens (stops_nil _)
  rwa [readOperations_of_stops (stops_nil _), List.append_nil] at hread

/-- The tokens of a derivation are refused only if they overrun the limit of nesting. -/
theorem readAll_eq_of_tokens (derivation : Expression) {placed : List PlacedToken}
    (htokens : placed.map PlacedToken.token = derivation.tokens) :
    readAll placed =
      unlessOverrun (derivation.overrun? nestingLimit) placed (.ok derivation.formula) := by
  unfold readAll
  rw [readFormula_eq_of_tokens derivation nestingLimit htokens, unlessOverrun_bind]
  rfl

/-- All tokens that are read as a formula derive it. -/
theorem derives_of_readAll {placed : List PlacedToken} {formula : Formula}
    (h : readAll placed = .ok formula) :
    Derives (placed.map PlacedToken.token) formula := by
  obtain ⟨⟨found, rest⟩, hread, hrest⟩ := exists_of_bind_eq_ok h
  obtain ⟨derivation, ⟨taken, rfl, htokens⟩, hformula, _⟩ := formulasDerived _ hread
  dsimp only at hrest
  split at hrest
  · cases hrest
    exact ⟨derivation, by simpa using htokens.symm, hformula⟩
  · cases hrest

end Formula

/-- Tokens derive no more than one formula. -/
theorem Grammar.Derives.unique {tokens : List Token} {formula other : Formula}
    (h : Derives tokens formula) (hother : Derives tokens other) : other = formula := by
  obtain ⟨first, rfl, rfl⟩ := h
  obtain ⟨second, htokens, rfl⟩ := hother
  -- Both are read off the same tokens within a room that neither overruns.
  let placed := first.tokens.map fun token => (⟨token, 0⟩ : PlacedToken)
  let room := max first.levels second.levels
  have hplaced : placed.map PlacedToken.token = first.tokens := by
    simp [placed, Function.comp_def]
  have hfirst := Formula.readFormula_eq_of_tokens first room hplaced
  have hsecond := Formula.readFormula_eq_of_tokens second room (hplaced.trans htokens.symm)
  rw [(first.overrun?_eq_none_iff room).2 (Nat.le_max_left _ _)] at hfirst
  rw [(second.overrun?_eq_none_iff room).2 (Nat.le_max_right _ _), hfirst] at hsecond
  simpa using hsecond.symm

namespace Formula

/-- A text of tokens is parsed by reading them all. -/
theorem parse_of_tokenize {text : String} {stream : TokenStream}
    (htokens : tokenize text = .ok stream) :
    parse text =
      ((readAll stream.tokens).mapError (Refusal.toError stream)).mapError .syntactic := by
  unfold parse
  rw [htokens]
  rfl

/-- A text whose tokens a derivation has is parsed as its formula if there are enough levels,
and otherwise refused because it nests too deep. -/
theorem parse_of_derivation {text : String} {stream : TokenStream}
    (htokens : tokenize text = .ok stream) (derivation : Expression)
    (hderived : derivation.tokens = stream.tokens.map PlacedToken.token) :
    (derivation.levels ≤ nestingLimit → parse text = .ok derivation.formula) ∧
      (nestingLimit < derivation.levels →
        ∃ error, parse text = .error (.syntactic error) ∧ error.IsTooDeep) := by
  rw [parse_of_tokenize htokens, readAll_eq_of_tokens derivation hderived.symm]
  constructor
  · intro hlevels
    rw [(derivation.overrun?_eq_none_iff _).2 hlevels]
    rfl
  · intro hlevels
    cases hplace : derivation.overrun? nestingLimit with
    | none => exact absurd ((derivation.overrun?_eq_none_iff _).1 hplace) (Nat.not_le.2 hlevels)
    | some count => exact ⟨_, rfl, SyntaxError.isTooDeep_iff.2 rfl⟩

/-- A text that spells the tokens of a derivation is parsed as its formula if there are enough
levels. -/
theorem parse_of_spells {text : String} (derivation : Expression)
    (h : Spells text.toList derivation.tokens) (hlevels : derivation.levels ≤ nestingLimit) :
    parse text = .ok derivation.formula := by
  obtain ⟨stream, htokens, hderived⟩ := tokenize_of_spells h
  exact (parse_of_derivation htokens derivation hderived.symm).1 hlevels

/-- A derivation of a text that is parsed takes up no more levels than there are. -/
theorem levels_le_of_parse {text : String} {stream : TokenStream} {formula : Formula}
    (htokens : tokenize text = .ok stream) (derivation : Expression)
    (hderived : derivation.tokens = stream.tokens.map PlacedToken.token)
    (h : parse text = .ok formula) : derivation.levels ≤ nestingLimit := by
  by_cases hlevels : derivation.levels ≤ nestingLimit
  · exact hlevels
  · obtain ⟨error, herror, _⟩ :=
      (parse_of_derivation htokens derivation hderived).2 (Nat.lt_of_not_le hlevels)
    rw [herror] at h
    cases h

/-- A text that is parsed is split into tokens. -/
theorem exists_tokenize_of_parse {text : String} {formula : Formula}
    (h : parse text = .ok formula) : ∃ stream, tokenize text = .ok stream := by
  obtain ⟨_, hstream, _⟩ := exists_of_bind_eq_ok h
  cases htokens : tokenize text with
  | error error =>
    rw [htokens] at hstream
    cases hstream
  | ok stream => exact ⟨stream, rfl⟩

/-- The tokens of a text that is parsed derive its formula. -/
theorem derives_of_parse {text : String} {stream : TokenStream} {formula : Formula}
    (htokens : tokenize text = .ok stream) (h : parse text = .ok formula) :
    Derives (stream.tokens.map PlacedToken.token) formula := by
  rw [parse_of_tokenize htokens] at h
  cases hread : readAll stream.tokens with
  | error refusal =>
    rw [hread] at h
    cases h
  | ok found =>
    rw [hread] at h
    cases h
    exact derives_of_readAll hread

end Formula

end Calculator
