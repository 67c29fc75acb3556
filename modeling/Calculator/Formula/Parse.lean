import Calculator.Formula
import Calculator.Token.Stream

/-!
# Reading formulas

Tokens are read by recursive descent. An operand is a number, a variable, a call, a formula
in parentheses, or a sign with its operand; a sign binds more tightly than any operator. The
operations after an operand are folded to the left by climbing precedence: the right operand
of an operator takes along only operators that bind more tightly.

A formula may nest so deep and no deeper. The readers carry the levels that are left as
`room`. A level is used up by every sign, parenthesis, argument list and operator of a chain
that the next operand stands in, and is given back where the sign, the parenthesis, the
argument list or the chain ends. What is read never grows, and the room for it shrinks at
every step down, so reading ends.
-/

namespace Calculator

/-- What may stand where a formula's tokens go on in another way. -/
inductive Expectation where
  /-- A number, an identifier or an opening parenthesis. -/
  | operand
  /-- The parenthesis that closes a formula. -/
  | closing
  /-- The end of an argument. -/
  | argumentEnd
  /-- An operator or the end of the formula. -/
  | continuation
  /-- Nothing: there is no room for the next level of nesting. -/
  | shallower
deriving Repr, DecidableEq

/-- The levels of nesting that a formula may have. -/
def nestingLimit : Nat := 256

/-- The expectation in words. -/
def Expectation.describe : Expectation → String
  | operand => "a number, identifier or '('"
  | closing => "')'"
  | argumentEnd => "',' or ')'"
  | continuation => "an operator or end of input"
  | shallower => s!"at most {nestingLimit} levels of nesting"

/-- Why tokens do not form a formula: the first one that does not fit, or the end of the
input, its byte offset, and what was expected there. -/
structure SyntaxError where
  found : Option Token
  position : Nat
  expected : Expectation
deriving DecidableEq

/-- What was found where, and what was expected. -/
def SyntaxError.message (error : SyntaxError) : String :=
  s!"unexpected {Token.describeNext error.found} at offset {error.position}, " ++
    s!"expected {error.expected.describe}"

/-- Why a text is not a formula. -/
inductive ParseError where
  | lexical (error : LexicalError)
  | syntactic (error : SyntaxError)
deriving DecidableEq

/-- What is wrong, and in which of the two respects. -/
def ParseError.message : ParseError → String
  | lexical error => "lex error: " ++ error.message
  | syntactic error => "syntax error: " ++ error.message

namespace Formula

/-- Where reading stopped and what was expected there. -/
structure Refusal where
  expected : Expectation
  rest : List PlacedToken
deriving DecidableEq

/-- What was read, and the tokens left. -/
abbrev Reading (α : Type) := α × List PlacedToken

/-- The tokens after the closing parenthesis that has to come next. -/
def afterClosing (expected : Expectation) : List PlacedToken → Except Refusal (List PlacedToken)
  | ⟨.mark .closing, _⟩ :: rest => .ok rest
  | tokens => .error ⟨expected, tokens⟩

/-- Formulas with a comma between each two, at most `bound` of them. -/
def readArguments (formula : List PlacedToken → Except Refusal (Reading Formula)) :
    (bound : Nat) → List PlacedToken → Except Refusal (Reading (List Formula))
  | 0, tokens => .error ⟨.operand, tokens⟩
  | bound + 1, tokens => do
    let (argument, rest) ← formula tokens
    match rest with
    | ⟨.mark .comma, _⟩ :: rest =>
      let (others, rest) ← readArguments formula bound rest
      return (argument :: others, rest)
    | _ => return ([argument], rest)

mutual

/-- An operand, with `room` levels left for it. -/
def readOperand : (room : Nat) → List PlacedToken → Except Refusal (Reading Formula)
  | 0, tokens => .error ⟨.shallower, tokens⟩
  | room + 1, tokens =>
    let formula (tokens : List PlacedToken) : Except Refusal (Reading Formula) := do
      let (first, rest) ← readOperand room tokens
      readOperations room Operator.additive first rest
    match tokens with
    | ⟨.number value, _⟩ :: rest => return (.literal value, rest)
    | ⟨.identifier name, _⟩ :: ⟨.mark .opening, _⟩ :: rest => do
      let (arguments, rest) ← readArguments formula (rest.length + 1) rest
      return (.call name arguments, ← afterClosing .argumentEnd rest)
    | ⟨.identifier name, _⟩ :: rest => return (.variable name, rest)
    | ⟨.mark .opening, _⟩ :: rest => do
      let (inner, rest) ← formula rest
      return (inner, ← afterClosing .closing rest)
    | ⟨.mark (.operator op), _⟩ :: rest =>
      match op.sign? with
      | some sign => do
        let (inner, rest) ← readOperand room rest
        return (.unary sign.symbol inner, rest)
      | none => .error ⟨.operand, tokens⟩
    | _ => .error ⟨.operand, tokens⟩

/-- The operations after a first operand whose operators bind at least as tightly as `least`,
with `room` levels left for the operand itself. -/
def readOperations :
    (room least : Nat) → (first : Formula) → List PlacedToken →
      Except Refusal (Reading Formula)
  | 0, least, first, tokens =>
    match tokens with
    | ⟨.mark (.operator op), _⟩ :: rest =>
      if op.precedence < least then return (first, tokens) else .error ⟨.shallower, rest⟩
    | _ => return (first, tokens)
  | room + 1, least, first, tokens =>
    match tokens with
    | ⟨.mark (.operator op), _⟩ :: rest =>
      if op.precedence < least then return (first, tokens)
      else do
        let (second, rest) ← readOperand room rest
        let (right, rest) ← readOperations room (op.precedence + 1) second rest
        readOperations room least (.binary first op.symbol right) rest
    | _ => return (first, tokens)

end

/-- A formula, with `room` levels left for each of its operands. -/
def readFormula (room : Nat) (tokens : List PlacedToken) : Except Refusal (Reading Formula) := do
  let (first, rest) ← readOperand room tokens
  readOperations room Operator.additive first rest

/-- An operand with room for it, its inner formulas read with one level less. -/
theorem readOperand_succ (room : Nat) (tokens : List PlacedToken) :
    readOperand (room + 1) tokens =
      match tokens with
      | ⟨.number value, _⟩ :: rest => .ok (.literal value, rest)
      | ⟨.identifier name, _⟩ :: ⟨.mark .opening, _⟩ :: rest => do
        let (arguments, rest) ← readArguments (readFormula room) (rest.length + 1) rest
        return (.call name arguments, ← afterClosing .argumentEnd rest)
      | ⟨.identifier name, _⟩ :: rest => .ok (.variable name, rest)
      | ⟨.mark .opening, _⟩ :: rest => do
        let (inner, rest) ← readFormula room rest
        return (inner, ← afterClosing .closing rest)
      | ⟨.mark (.operator op), _⟩ :: rest =>
        match op.sign? with
        | some sign => do
          let (inner, rest) ← readOperand room rest
          return (.unary sign.symbol inner, rest)
        | none => .error ⟨.operand, tokens⟩
      | _ => .error ⟨.operand, tokens⟩ := by
  rw [readOperand.eq_def]
  rfl

/-- A formula that takes up all the tokens. -/
def readAll (tokens : List PlacedToken) : Except Refusal Formula := do
  let (formula, rest) ← readFormula nestingLimit tokens
  match rest with
  | [] => return formula
  | _ => .error ⟨.continuation, rest⟩

/-- The error at the place where reading tokens stopped. -/
def Refusal.toError (stream : TokenStream) (refusal : Refusal) : SyntaxError where
  found := refusal.rest.head?.map PlacedToken.token
  position := (refusal.rest.head?.map PlacedToken.position).getD stream.size
  expected := refusal.expected

/-- The formula that tokens form, or the first token that does not fit. -/
def ofTokens (stream : TokenStream) : Except SyntaxError Formula :=
  (readAll stream.tokens).mapError (Refusal.toError stream)

/-- The formula that a text writes, or what is wrong with the text. Names are not looked up. -/
def parse (text : String) : Except ParseError Formula := do
  let stream ← (tokenize text).mapError .lexical
  (ofTokens stream).mapError .syntactic

/-- What has to close is read only if it does. -/
theorem afterClosing_eq_ok_iff {expected : Expectation} {tokens rest : List PlacedToken} :
    afterClosing expected tokens = .ok rest ↔
      ∃ position, tokens = ⟨.mark .closing, position⟩ :: rest := by
  unfold afterClosing
  split
  · rename_i position rest'
    constructor
    · rintro ⟨⟩
      exact ⟨position, rfl⟩
    · rintro ⟨_, htokens⟩
      cases htokens
      rfl
  · rename_i hother
    constructor
    · rintro ⟨⟩
    · rintro ⟨position, rfl⟩
      exact absurd rfl (hother position rest)

end Formula

end Calculator
