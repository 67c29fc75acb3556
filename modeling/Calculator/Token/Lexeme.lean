import Calculator.Token
import Calculator.Token.Numeral

/-!
# Lexemes

A lexeme is a token as it is written. At most one of the three kinds can start at a given
place, since a numeral starts with a digit or a point, an identifier with a letter or an
underscore, and a mark is a character of its own. Every lexeme is a token, save a numeral
whose value is past the range of finite numbers.

The main statement is that a lexeme and the rest of the text after it make up the text.
-/

namespace Calculator

/-- A token as it is written. -/
inductive Lexeme where
  | numeral (written : Numeral)
  | identifier (name : List Char)
  | mark (written : Mark)
deriving Repr, DecidableEq

/-- A character may start an identifier. -/
def startsIdentifier (c : Char) : Bool :=
  c.isAlpha || c == '_'

/-- A character may stand in an identifier after the first. -/
def continuesIdentifier (c : Char) : Bool :=
  c.isAlphanum || c == '_'

/-- The longest identifier at the start of a text, and the rest. -/
def scanIdentifier? : List Char → Option (List Char × List Char)
  | [] => none
  | c :: rest =>
    if startsIdentifier c then
      some (c :: rest.takeWhile continuesIdentifier, rest.dropWhile continuesIdentifier)
    else none

/-- The mark at the start of a text, and the rest. -/
def scanMark? : List Char → Option (Mark × List Char)
  | [] => none
  | c :: rest => (Mark.ofSymbol? c).map (·, rest)

namespace Lexeme

/-- The characters of a lexeme. -/
def text : Lexeme → List Char
  | .numeral written => written.text
  | .identifier name => name
  | .mark written => [written.symbol]

/-- The token that a lexeme writes, unless it is a number past the finite range. -/
def token? : Lexeme → Option Token
  | .numeral written => written.value.toFloat?.map .number
  | .identifier name => some (.identifier (String.ofList name))
  | .mark written => some (.mark written)

/-- The longest lexeme at the start of a text, and the rest. -/
def scan? (cs : List Char) : Option (Lexeme × List Char) :=
  match Numeral.scan? cs with
  | some (written, rest) => some (.numeral written, rest)
  | none =>
    match scanIdentifier? cs with
    | some (name, rest) => some (.identifier name, rest)
    | none => (scanMark? cs).map fun (written, rest) => (.mark written, rest)

/-- An identifier and what follows it make up the text. -/
theorem append_of_scanIdentifier? {cs name rest : List Char}
    (h : scanIdentifier? cs = some (name, rest)) : name ++ rest = cs := by
  unfold scanIdentifier? at h
  split at h
  · cases h
  · split at h
    · obtain ⟨rfl, rfl⟩ := Prod.mk.inj (Option.some.inj h)
      simp
    · cases h

/-- An identifier is not empty. -/
theorem ne_nil_of_scanIdentifier? {cs name rest : List Char}
    (h : scanIdentifier? cs = some (name, rest)) : name ≠ [] := by
  unfold scanIdentifier? at h
  split at h
  · cases h
  · split at h
    · obtain ⟨rfl, _⟩ := Prod.mk.inj (Option.some.inj h)
      simp
    · cases h

/-- A mark and what follows it make up the text. -/
theorem cons_of_scanMark? {cs rest : List Char} {written : Mark}
    (h : scanMark? cs = some (written, rest)) : written.symbol :: rest = cs := by
  unfold scanMark? at h
  split at h
  · cases h
  · obtain ⟨found, hfound, heq⟩ := Option.map_eq_some_iff.1 h
    obtain ⟨rfl, rfl⟩ := Prod.mk.inj heq
    rw [Mark.ofSymbol?_eq_some_iff.1 hfound]

/-- A lexeme is scanned as a numeral, as an identifier or as a mark. -/
theorem cases_of_scan? {cs rest : List Char} {lexeme : Lexeme}
    (h : scan? cs = some (lexeme, rest)) :
    (∃ written, lexeme = .numeral written ∧ Numeral.scan? cs = some (written, rest)) ∨
      (∃ name, lexeme = .identifier name ∧ scanIdentifier? cs = some (name, rest)) ∨
        ∃ written, lexeme = .mark written ∧ scanMark? cs = some (written, rest) := by
  unfold scan? at h
  split at h
  · rename_i written rest' hscanned
    obtain ⟨rfl, rfl⟩ := Prod.mk.inj (Option.some.inj h)
    exact .inl ⟨written, rfl, hscanned⟩
  · split at h
    · rename_i name rest' hscanned
      obtain ⟨rfl, rfl⟩ := Prod.mk.inj (Option.some.inj h)
      exact .inr (.inl ⟨name, rfl, hscanned⟩)
    · obtain ⟨⟨written, rest'⟩, hscanned, heq⟩ := Option.map_eq_some_iff.1 h
      obtain ⟨rfl, rfl⟩ := Prod.mk.inj heq
      exact .inr (.inr ⟨written, rfl, hscanned⟩)

/-- A lexeme and what follows it make up the text. -/
theorem text_append_of_scan? {cs rest : List Char} {lexeme : Lexeme}
    (h : scan? cs = some (lexeme, rest)) : lexeme.text ++ rest = cs := by
  rcases cases_of_scan? h with ⟨written, rfl, hscanned⟩ | ⟨name, rfl, hscanned⟩ |
    ⟨written, rfl, hscanned⟩
  · exact Numeral.text_append_of_scan? hscanned
  · exact append_of_scanIdentifier? hscanned
  · exact cons_of_scanMark? hscanned

/-- A lexeme is not empty. -/
theorem text_ne_nil_of_scan? {cs rest : List Char} {lexeme : Lexeme}
    (h : scan? cs = some (lexeme, rest)) : lexeme.text ≠ [] := by
  rcases cases_of_scan? h with ⟨written, rfl, hscanned⟩ | ⟨name, rfl, hscanned⟩ |
    ⟨written, rfl, _⟩
  · exact Numeral.text_ne_nil_of_scan? hscanned
  · exact ne_nil_of_scanIdentifier? hscanned
  · exact List.cons_ne_nil _ _

/-- What follows a lexeme is shorter than the text. -/
theorem length_lt_of_scan? {cs rest : List Char} {lexeme : Lexeme}
    (h : scan? cs = some (lexeme, rest)) : rest.length < cs.length := by
  have hpos := List.length_pos_iff.2 (text_ne_nil_of_scan? h)
  rw [← text_append_of_scan? h, List.length_append]
  omega

end Lexeme

end Calculator
