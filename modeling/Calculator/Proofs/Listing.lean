import Calculator.Proofs.Acceptance
import Calculator.Proofs.Nodes

/-!
# Formulas listed from left to right

Reading loses no token, repeats none and changes no order. A formula can be listed from left to
right, a sign before its operand, an operator between its operands and a name before the arguments
of its call. The listing of a parsed formula has just the tokens of the text, save the parentheses
and commas, which leave no node.

So the variables that a check collects can be read off the text: they are the names that no
parenthesis opens right after.
-/

namespace Calculator

/-- The token is a parenthesis or a comma. -/
def Token.separates : Token → Bool
  | .mark .opening | .mark .closing | .mark .comma => true
  | .mark (.operator _) | .number _ | .identifier _ => false

/-- The tokens that are neither parentheses nor commas, in their order. -/
def Token.kept (tokens : List Token) : List Token :=
  tokens.filter fun token => !token.separates

namespace Formula

/-- The token that a symbol is written as, if it is one that can be written. -/
def symbolToken? (symbol : Char) : Option Token :=
  (Mark.ofSymbol? symbol).map .mark

mutual

/-- The tokens of a formula from left to right, parentheses and commas left out. A symbol that
cannot be written takes its place without a token. -/
def listing : Formula → List (Option Token)
  | .literal value => [some (.number value)]
  | .variable name => [some (.identifier name)]
  | .unary symbol operand => symbolToken? symbol :: operand.listing
  | .binary left symbol right => left.listing ++ symbolToken? symbol :: right.listing
  | .call name arguments => some (.identifier name) :: listingAll arguments

/-- The tokens of formulas, one formula after the other. -/
def listingAll : List Formula → List (Option Token)
  | [] => []
  | formula :: formulas => formula.listing ++ listingAll formulas

end

/-- An operator's symbol is written as the operator. -/
theorem symbolToken?_operator (op : Operator) :
    symbolToken? op.symbol = some (.mark (.operator op)) := by
  have hread : Mark.ofSymbol? op.symbol = some (.operator op) := Mark.ofSymbol?_eq_some_iff.2 rfl
  rw [symbolToken?, hread, Option.map_some]

/-- A sign's symbol is written as the operator that looks like it. -/
theorem symbolToken?_sign (sign : Sign) :
    symbolToken? sign.symbol = some (.mark (.operator sign.operator)) := by
  cases sign <;> rfl

end Formula

namespace Token

/-- What is kept of two lists is kept of each. -/
theorem kept_append (front back : List Token) : kept (front ++ back) = kept front ++ kept back :=
  List.filter_append front back

/-- A token that is no parenthesis and no comma is kept. -/
theorem kept_cons {token : Token} (h : token.separates = false) (rest : List Token) :
    kept (token :: rest) = token :: kept rest := by
  rw [kept, List.filter_cons_of_pos (by simp [h]), ← kept]

/-- A parenthesis or comma is left out. -/
theorem kept_cons_of_separates {token : Token} (h : token.separates = true) (rest : List Token) :
    kept (token :: rest) = kept rest := by
  rw [kept, List.filter_cons_of_neg (by simp [h]), ← kept]

/-- A closing parenthesis at the end is left out. -/
theorem kept_append_closing (tokens : List Token) :
    kept (tokens ++ [.mark .closing]) = kept tokens := by
  rw [kept_append, kept_cons_of_separates rfl]
  exact List.append_nil _

end Token

namespace Grammar

open Formula

mutual

/-- An operand's formula lists the operand's tokens. -/
theorem Operand.listing_formula (operand : Operand) :
    operand.formula.listing = (Token.kept operand.tokens).map some := by
  cases operand with
  | number value => rfl
  | identifier name => rfl
  | call name arguments =>
    rw [Operand.formula, listing, Operand.tokens, Token.kept_cons rfl,
      Token.kept_cons_of_separates rfl, Token.kept_append_closing, List.map_cons,
      arguments.listing_formulas]
  | group inner =>
    rw [Operand.formula, Operand.tokens, Token.kept_cons_of_separates rfl,
      Token.kept_append_closing, inner.listing_formula]
  | signed sign operand =>
    rw [Operand.formula, listing, Operand.tokens, Token.kept_cons rfl, List.map_cons,
      symbolToken?_sign, operand.listing_formula]

/-- A term's formula lists the term's tokens. -/
theorem Term.listing_formula (term : Term) :
    term.formula.listing = (Token.kept term.tokens).map some := by
  cases term with
  | operand only => exact only.listing_formula
  | operation left op tight right =>
    rw [Term.formula, listing, Term.tokens, Token.kept_append, Token.kept_cons rfl,
      List.map_append, List.map_cons, symbolToken?_operator, left.listing_formula,
      right.listing_formula]

/-- A derivation's formula lists the derivation's tokens. -/
theorem Expression.listing_formula (expression : Expression) :
    expression.formula.listing = (Token.kept expression.tokens).map some := by
  cases expression with
  | term only => exact only.listing_formula
  | operation left op loose right =>
    rw [Expression.formula, listing, Expression.tokens, Token.kept_append, Token.kept_cons rfl,
      List.map_append, List.map_cons, symbolToken?_operator, left.listing_formula,
      right.listing_formula]

/-- The formulas of arguments list the tokens of the arguments. -/
theorem Arguments.listing_formulas (arguments : Arguments) :
    listingAll arguments.formulas = (Token.kept arguments.tokens).map some := by
  cases arguments with
  | last argument =>
    rw [Arguments.formulas, listingAll, listingAll, List.append_nil, Arguments.tokens,
      argument.listing_formula]
  | more argument others =>
    rw [Arguments.formulas, listingAll, Arguments.tokens, Token.kept_append,
      Token.kept_cons_of_separates rfl, List.map_append, argument.listing_formula,
      others.listing_formulas]

end

end Grammar

/-- Among tokens a name stands without being called if no parenthesis opens right after it. -/
theorem Token.mem_names_iff {tokens : List Token} {name : String} :
    (name, false) ∈ names tokens ↔ ∃ place : ℕ,
      tokens[place]? = some (.identifier name) ∧ tokens[place + 1]? ≠ some (.mark .opening) := by
  induction tokens with
  | nil => simp [names]
  | cons first rest ih =>
    rw [← Nat.or_exists_add_one]
    simp only [List.getElem?_cons_zero, List.getElem?_cons_succ]
    rw [← ih]
    cases first with
    | number value => simp [names]
    | mark written => simp [names]
    | identifier name' =>
      rw [names, List.mem_cons, List.head?_eq_getElem?]
      simp [eq_comm]

namespace Formula

mutual

/-- A variable is among the nodes of a formula if its name stands in it without being called. -/
theorem variable_mem_nodes_iff (formula : Formula) (name : String) :
    .variable name ∈ formula.nodes ↔ (name, false) ∈ formula.names := by
  cases formula with
  | literal value => simp [nodes, names]
  | «variable» name' => simp [nodes, names]
  | unary symbol operand => simp [nodes, names, operand.variable_mem_nodes_iff name]
  | binary left symbol right =>
    simp [nodes, names, left.variable_mem_nodes_iff name, right.variable_mem_nodes_iff name]
  | call name' arguments => simp [nodes, names, variable_mem_nodesAll_iff arguments name]

/-- A variable is among the nodes of formulas if its name stands in them without being called. -/
theorem variable_mem_nodesAll_iff (formulas : List Formula) (name : String) :
    .variable name ∈ nodesAll formulas ↔ (name, false) ∈ namesAll formulas := by
  cases formulas with
  | nil => simp [nodesAll, namesAll]
  | cons formula formulas =>
    simp [nodesAll, namesAll, formula.variable_mem_nodes_iff name,
      variable_mem_nodesAll_iff formulas name]

end

/-- A check that finds no defect collects the names that stand in the formula without being
called. -/
theorem mem_of_check {formula : Formula} {names : Names} (h : formula.check ∅ = (.ok (), names))
    (name : String) : name ∈ names ↔ (name, false) ∈ formula.names := by
  rw [← formula.variable_mem_nodes_iff]
  rcases exists_first_ownDefect formula.nodes with
    hknown | ⟨before, node, after, defect, hsplit, hbefore, hnode⟩
  · rw [check_of_known hknown] at h
    cases h
    rw [Std.ExtTreeSet.mem_union_iff, mem_variablesAmong]
    exact or_iff_right Std.ExtTreeSet.not_mem_empty
  · rw [check_of_first hsplit hbefore hnode] at h
    cases h

/-- Parsing loses no token, repeats none and changes no order. A text that is parsed is split into
tokens, and the formula listed from left to right has just these tokens, without the parentheses
and commas. So if a check of the formula finds no defect, then the names that it collects are those
of the identifiers among the tokens that no parenthesis opens right after. -/
theorem listing_of_parse {text : String} {formula : Formula} (h : parse text = .ok formula) :
    ∃ stream, tokenize text = .ok stream ∧
      formula.listing = (Token.kept (stream.tokens.map PlacedToken.token)).map some ∧
      ∀ names, formula.check ∅ = (.ok (), names) → ∀ name, name ∈ names ↔ ∃ place : ℕ,
        (stream.tokens.map PlacedToken.token)[place]? = some (.identifier name) ∧
        (stream.tokens.map PlacedToken.token)[place + 1]? ≠ some (.mark .opening) := by
  obtain ⟨stream, htokens⟩ := exists_tokenize_of_parse h
  obtain ⟨derivation, hderived, rfl⟩ := derives_of_parse htokens h
  refine ⟨stream, htokens, ?_, fun names hcheck name => ?_⟩
  · rw [← hderived]
    exact derivation.listing_formula
  · rw [mem_of_check hcheck, ← derivation.names_tokens, Token.mem_names_iff, hderived]

/-- The sine of a product is listed without the parentheses around it and around the sum in it, and
a function's name that is used as a variable too is collected. -/
theorem listing_of_parse_sine :
    ∃ formula names, parse "sin((x+sin)*-y)" = .ok formula ∧ formula.check ∅ = (.ok (), names) ∧
      formula.listing = [Token.identifier "sin", .identifier "x", .mark (.operator .add),
        .identifier "sin", .mark (.operator .multiply), .mark (.operator .subtract),
        .identifier "y"].map some ∧
      ∀ name, name ∈ names ↔ name = "x" ∨ name = "sin" ∨ name = "y" := by
  let written : Grammar.Expression := .term (.operand (.call "sin" (.last (.term (.operation
    (.operand (.group (.operation (.term (.operand (.identifier "x"))) .add rfl
      (.operand (.identifier "sin"))))) .multiply rfl (.signed .minus (.identifier "y")))))))
  have hsine : isIdentifier "sin".toList = true := by decide
  have haddend : isIdentifier "x".toList = true := by decide
  have hfactor : isIdentifier "y".toList = true := by decide
  have hsum := ((Spells.identifier haddend).append
    ((Spells.identifier hsine).mark_cons (.operator .add))
    fun rest _ => cuts_cons (by decide) (by decide) _).group
  have hproduct := hsum.append
    (((Spells.identifier hfactor).mark_cons (.operator .subtract)).mark_cons
      (.operator .multiply)) fun rest _ => cuts_cons (by decide) (by decide) _
  have htext : Spells "sin((x+sin)*-y)".toList written.tokens := hproduct.call hsine
  have hparse : parse "sin((x+sin)*-y)" = .ok written.formula :=
    parse_of_spells written htext (by decide)
  have hknown : knownBuiltin "sin" 1 = .ok .sin := knownBuiltin_eq_ok_iff.2 ⟨rfl, rfl⟩
  have hcheck : written.formula.check ∅ =
      (.ok (), (((∅ : Names).insert "x").insert "sin").insert "y") := by
    change check (.call "sin" [_]) ∅ = _
    rw [check, List.length_singleton, hknown]
    rfl
  obtain ⟨stream, htokens, hlisting, hnames⟩ := listing_of_parse hparse
  obtain ⟨stream', htokens', hderived⟩ := tokenize_of_spells htext
  obtain rfl : stream = stream' := Except.ok.inj (htokens.symm.trans htokens')
  rw [hderived] at hlisting hnames
  refine ⟨_, _, hparse, hcheck, hlisting, fun name => ?_⟩
  have hstanding : written.formula.names =
      [("sin", true), ("x", false), ("sin", false), ("y", false)] := rfl
  rw [hnames _ hcheck, ← Token.mem_names_iff, written.names_tokens, hstanding]
  simp

end Formula

end Calculator
