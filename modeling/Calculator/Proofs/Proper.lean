import Calculator.Proofs.Acceptance
import Calculator.Proofs.Nearest
import Calculator.Proofs.Rereading

/-!
# Parsed formulas can be written

Every number token of a text is finite and without a minus sign, and every identifier token is
an identifier. What the grammar derives from such tokens can be written: its symbols come from
signs and operators, its calls have arguments, and its literals are number tokens.
-/

namespace Calculator

/-- A token is one that a text may have: its number is finite and without a minus sign, or its
name is an identifier. -/
def Token.isProper : Token → Bool
  | .number value =>
    (Number.Binary64.ofFloat value).isFinite && !(Number.Binary64.ofFloat value).isNegative
  | .identifier name => isIdentifier name.toList
  | .mark _ => true

/-- A finite number without a minus sign may be in a text. -/
theorem Token.isProper_of_finite {value : Float} {units : ℕ}
    (h : Number.Binary64.ofFloat value = .finite false units) :
    (Token.number value).isProper = true := by
  simp [isProper, h, Number.Binary64.isFinite, Number.Binary64.isNegative]

/-- A number that a text may have is finite and without a minus sign. -/
theorem Token.exists_finite_of_isProper {value : Float}
    (h : (Token.number value).isProper = true) :
    ∃ units, Number.Binary64.ofFloat value = .finite false units := by
  cases hvalue : Number.Binary64.ofFloat value <;>
    simp_all [Token.isProper, Number.Binary64.isFinite, Number.Binary64.isNegative]

/-- A decimal is read as a finite number without a minus sign. -/
theorem Number.Decimal.isProper_of_toFloat? {number : Decimal} {value : Float}
    (h : number.toFloat? = some value) : (Token.number value).isProper = true :=
  Token.isProper_of_finite (ofFloat_nearestPattern h)

/-- A lexeme scanned in a text is a proper token, if it is one. -/
theorem Lexeme.isProper_of_scan? {cs rest : List Char} {lexeme : Lexeme} {token : Token}
    (hscan : scan? cs = some (lexeme, rest)) (htoken : lexeme.token? = some token) :
    token.isProper = true := by
  rcases cases_of_scan? hscan with ⟨written, rfl, _⟩ | ⟨name, rfl, hname⟩ | ⟨written, rfl, _⟩
  · obtain ⟨value, hvalue, rfl⟩ := Option.map_eq_some_iff.1 htoken
    exact Number.Decimal.isProper_of_toFloat? hvalue
  · cases htoken
    simpa [Token.isProper] using isIdentifier_of_scanIdentifier? hname
  · cases htoken
    rfl

namespace Cursor

/-- A token read is proper. -/
theorem isProper_of_next {cursor after : Cursor} {token : PlacedToken}
    (h : cursor.next = (some (.ok token), after)) : token.token.isProper = true := by
  obtain ⟨lexeme, hscan, htoken, _⟩ := exists_lexeme_of_read h
  exact Lexeme.isProper_of_scan? hscan htoken

/-- All tokens of a text are proper. -/
theorem isProper_of_mem_tokens (cursor : Cursor) {placed : List PlacedToken}
    (h : cursor.tokens = .ok placed) : ∀ token ∈ placed, token.token.isProper = true := by
  refine tokens_induction (motive := fun _ placed =>
    ∀ token ∈ placed, token.token.isProper = true) (fun cursor after hnext => by simp) ?_ cursor h
  intro cursor token after placed hnext ih
  exact List.forall_mem_cons.2 ⟨isProper_of_next hnext, ih⟩

end Cursor

namespace Grammar

open Formula

/-- There are formulas where there are arguments. -/
theorem Arguments.formulas_ne_nil (arguments : Arguments) : arguments.formulas ≠ [] := by
  cases arguments <;> simp [Arguments.formulas]

mutual

/-- What an operand derives from proper tokens can be written. -/
theorem Operand.isWritable_formula (operand : Operand)
    (h : ∀ token ∈ operand.tokens, token.isProper = true) :
    operand.formula.isWritable = true := by
  cases operand with
  | number value =>
    have hproper := h _ (List.mem_singleton.2 rfl)
    simp only [Token.isProper, Bool.and_eq_true] at hproper
    exact hproper.1
  | identifier name => exact h _ (List.mem_singleton.2 rfl)
  | call name arguments =>
    simp only [Operand.tokens, List.forall_mem_cons, List.forall_mem_append] at h
    have hname : isIdentifier name.toList = true := h.1
    have hall := arguments.areWritable_formulas h.2.2.1
    have hnonempty := arguments.formulas_ne_nil
    simp [Operand.formula, isWritable, hname, hall, hnonempty]
  | group inner =>
    simp only [Operand.tokens, List.forall_mem_cons, List.forall_mem_append] at h
    exact inner.isWritable_formula h.2.1
  | signed sign operand =>
    simp only [Operand.tokens, List.forall_mem_cons] at h
    have hoperand := operand.isWritable_formula h.2
    simp [Operand.formula, isWritable, hoperand, Sign.ofSymbol?_eq_some_iff.2 rfl]

/-- What a term derives from proper tokens can be written. -/
theorem Term.isWritable_formula (term : Term)
    (h : ∀ token ∈ term.tokens, token.isProper = true) : term.formula.isWritable = true := by
  cases term with
  | operand only => exact only.isWritable_formula h
  | operation left op tight right =>
    simp only [Term.tokens, List.forall_mem_cons, List.forall_mem_append] at h
    have hleft := left.isWritable_formula h.1
    have hright := right.isWritable_formula h.2.2
    simp [Term.formula, isWritable, hleft, hright, Operator.ofSymbol?_eq_some_iff.2 rfl]

/-- What a derivation derives from proper tokens can be written. -/
theorem Expression.isWritable_formula (expression : Expression)
    (h : ∀ token ∈ expression.tokens, token.isProper = true) :
    expression.formula.isWritable = true := by
  cases expression with
  | term only => exact only.isWritable_formula h
  | operation left op loose right =>
    simp only [Expression.tokens, List.forall_mem_cons, List.forall_mem_append] at h
    have hleft := left.isWritable_formula h.1
    have hright := right.isWritable_formula h.2.2
    simp [Expression.formula, isWritable, hleft, hright, Operator.ofSymbol?_eq_some_iff.2 rfl]

/-- What arguments derive from proper tokens can be written. -/
theorem Arguments.areWritable_formulas (arguments : Arguments)
    (h : ∀ token ∈ arguments.tokens, token.isProper = true) :
    areWritable arguments.formulas = true := by
  cases arguments with
  | last argument => simp [Arguments.formulas, areWritable, argument.isWritable_formula h]
  | more argument others =>
    simp only [Arguments.tokens, List.forall_mem_cons, List.forall_mem_append] at h
    have hfirst := argument.isWritable_formula h.1
    have hothers := others.areWritable_formulas h.2.2
    simp [Arguments.formulas, areWritable, hfirst, hothers]

end

mutual

/-- The literals of an operand's formula are number tokens of it. -/
theorem Operand.mem_tokens_of_mem_literals (operand : Operand) {x : Float}
    (h : x ∈ operand.formula.literals) : .number x ∈ operand.tokens := by
  cases operand with
  | number value => simpa [Operand.formula, literals, Operand.tokens] using h
  | identifier name => simp [Operand.formula, literals] at h
  | call name arguments =>
    simp [Operand.tokens, arguments.mem_tokens_of_mem_literals h]
  | group inner => simp [Operand.tokens, inner.mem_tokens_of_mem_literals h]
  | signed sign operand => simp [Operand.tokens, operand.mem_tokens_of_mem_literals h]

/-- The literals of a term's formula are number tokens of it. -/
theorem Term.mem_tokens_of_mem_literals (term : Term) {x : Float}
    (h : x ∈ term.formula.literals) : .number x ∈ term.tokens := by
  cases term with
  | operand only => exact only.mem_tokens_of_mem_literals h
  | operation left op tight right =>
    rw [Term.tokens, List.mem_append, List.mem_cons]
    rcases List.mem_append.1 h with hleft | hright
    · exact .inl (left.mem_tokens_of_mem_literals hleft)
    · exact .inr (.inr (right.mem_tokens_of_mem_literals hright))

/-- The literals of a derivation's formula are number tokens of it. -/
theorem Expression.mem_tokens_of_mem_literals (expression : Expression) {x : Float}
    (h : x ∈ expression.formula.literals) : .number x ∈ expression.tokens := by
  cases expression with
  | term only => exact only.mem_tokens_of_mem_literals h
  | operation left op loose right =>
    rw [Expression.tokens, List.mem_append, List.mem_cons]
    rcases List.mem_append.1 h with hleft | hright
    · exact .inl (left.mem_tokens_of_mem_literals hleft)
    · exact .inr (.inr (right.mem_tokens_of_mem_literals hright))

/-- The literals of arguments are number tokens of them. -/
theorem Arguments.mem_tokens_of_mem_literals (arguments : Arguments) {x : Float}
    (h : x ∈ literalsAll arguments.formulas) : .number x ∈ arguments.tokens := by
  cases arguments with
  | last argument =>
    rw [Arguments.formulas, literalsAll, literalsAll, List.append_nil] at h
    exact argument.mem_tokens_of_mem_literals h
  | more argument others =>
    rw [Arguments.tokens, List.mem_append, List.mem_cons]
    rw [Arguments.formulas, literalsAll] at h
    rcases List.mem_append.1 h with hfirst | hothers
    · exact .inl (argument.mem_tokens_of_mem_literals hfirst)
    · exact .inr (.inr (others.mem_tokens_of_mem_literals hothers))

end

end Grammar

/-- A formula that is parsed can be written. -/
theorem Formula.isWritable_of_parse {text : String} {formula : Formula}
    (h : parse text = .ok formula) : formula.isWritable = true := by
  obtain ⟨stream, htokens⟩ := exists_tokenize_of_parse h
  obtain ⟨derivation, hderived, rfl⟩ := derives_of_parse htokens h
  apply derivation.isWritable_formula
  rw [hderived]
  intro token htoken
  obtain ⟨placed, hmem, rfl⟩ := List.mem_map.1 htoken
  exact Cursor.isProper_of_mem_tokens _ (tokens_start_of_tokenize htokens) placed hmem

/-- The literals of a formula that is parsed are finite and without a minus sign. -/
theorem Formula.finite_of_mem_literals {text : String} {formula : Formula}
    (h : parse text = .ok formula) {x : Float} (hx : x ∈ formula.literals) :
    ∃ units, Number.Binary64.ofFloat x = .finite false units := by
  obtain ⟨stream, htokens⟩ := exists_tokenize_of_parse h
  obtain ⟨derivation, hderived, rfl⟩ := derives_of_parse htokens h
  have htoken := derivation.mem_tokens_of_mem_literals hx
  rw [hderived] at htoken
  obtain ⟨placed, hmem, hplaced⟩ := List.mem_map.1 htoken
  have hproper := Cursor.isProper_of_mem_tokens _ (tokens_start_of_tokenize htokens) placed hmem
  rw [hplaced] at hproper
  exact Token.exists_finite_of_isProper hproper

end Calculator
