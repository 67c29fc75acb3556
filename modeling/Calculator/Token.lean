import Calculator.Operator
import Calculator.Number.Shortest
import Calculator.Text.Quoted

/-!
# Tokens

A formula's text is a sequence of tokens: numbers, identifiers and marks. A token's place
in the text is the byte offset of its first character. Messages name a token by what it is,
and speak of the end of the input where no token is left.
-/

namespace Calculator

/-- A token of a single character. -/
inductive Mark where
  | operator (op : Operator)
  | opening
  | closing
  | comma
deriving Repr, DecidableEq

namespace Mark

/-- The character that writes a mark. -/
def symbol : Mark → Char
  | .operator op => op.symbol
  | opening => '('
  | closing => ')'
  | comma => ','

/-- The mark that a character writes. -/
def ofSymbol? : Char → Option Mark
  | '(' => some opening
  | ')' => some closing
  | ',' => some comma
  | c => (Operator.ofSymbol? c).map .operator

/-- Reading a symbol and writing a mark are inverse. -/
theorem ofSymbol?_eq_some_iff {c : Char} {mark : Mark} :
    ofSymbol? c = some mark ↔ mark.symbol = c := by
  constructor
  · intro h
    unfold ofSymbol? at h
    split at h
    · cases h; rfl
    · cases h; rfl
    · cases h; rfl
    · obtain ⟨op, hop, rfl⟩ := Option.map_eq_some_iff.1 h
      exact Operator.ofSymbol?_eq_some_iff.1 hop
  · rintro rfl
    rcases mark with op | _ | _ | _ <;> try rfl
    cases op <;> rfl

end Mark

/-- A token of a formula's text. -/
inductive Token where
  | number (value : Float)
  | identifier (name : String)
  | mark (written : Mark)
deriving DecidableEq

namespace Token

/-- A token as messages name it. -/
def describe : Token → String
  | number value => "number " ++ String.ofList (Number.shortestText value)
  | identifier name => "identifier " ++ Text.quotedString name
  | .mark written => Text.quotedChar written.symbol

/-- The next token as messages name it, or the end of the input. -/
def describeNext : Option Token → String
  | some token => token.describe
  | none => "end of input"

end Token

/-- A token and the byte offset of its first character. -/
structure PlacedToken where
  token : Token
  position : Nat
deriving DecidableEq

/-- The tokens of a text, in order, and the byte length of the text. -/
structure TokenStream where
  tokens : List PlacedToken
  size : Nat
deriving DecidableEq

end Calculator
