import Calculator.Token.Lexeme
import Calculator.Text.Blank
import Calculator.Text.Bytes

/-!
# Reading tokens

A cursor stands somewhere in a text. Each step skips the blank characters before it and
reads the longest lexeme that starts there. The first character at which no lexeme starts,
or the first number past the finite range, ends the reading: the cursor reports it once and
has nothing more to read.

Tokenizing a text runs a cursor to its end. It stops because every token read leaves a
shorter text behind.
-/

namespace Calculator

/-- Why a text cannot be split into tokens. Positions are byte offsets. -/
inductive LexicalError where
  /-- No lexeme starts with the character found. -/
  | unexpectedCharacter (found : Char) (position : Nat)
  /-- A number is past the finite range; it is kept as written. -/
  | numberOutOfRange (literal : List Char) (position : Nat)
deriving Repr, DecidableEq

namespace LexicalError

/-- What is wrong and where. -/
def message : LexicalError → String
  | unexpectedCharacter found position =>
    "unexpected character " ++ Text.quotedChar found ++ s!" at offset {position}"
  | numberOutOfRange literal position =>
    "number " ++ String.ofList literal ++ s!" out of range at offset {position}"

end LexicalError

/-- A place in a text: what is left to read and the byte offset where that starts. -/
structure Cursor where
  rest : List Char
  position : Nat
deriving Repr, DecidableEq

namespace Cursor

/-- A cursor at the start of a text. -/
def start (text : String) : Cursor :=
  ⟨text.toList, 0⟩

/-- The cursor after the blank characters where it stands. -/
def skipBlank (cursor : Cursor) : Cursor :=
  ⟨cursor.rest.dropWhile Text.isBlank,
    cursor.position + Text.byteLength (cursor.rest.takeWhile Text.isBlank)⟩

/-- A cursor with nothing more to read. -/
def finished (cursor : Cursor) : Cursor :=
  ⟨[], cursor.position⟩

/-- One step from a place without blank characters: the token there and where it ends. -/
def read (cursor : Cursor) : Option (Except LexicalError PlacedToken) × Cursor :=
  match cursor.rest with
  | [] => (none, cursor)
  | found :: _ =>
    match Lexeme.scan? cursor.rest with
    | none => (some (.error (.unexpectedCharacter found cursor.position)), cursor.finished)
    | some (lexeme, rest) =>
      match lexeme.token? with
      | none => (some (.error (.numberOutOfRange lexeme.text cursor.position)), cursor.finished)
      | some token =>
        (some (.ok ⟨token, cursor.position⟩),
          ⟨rest, cursor.position + Text.byteLength lexeme.text⟩)

/-- The next token or the error met, nothing at the end, and where the cursor then stands. -/
def next (cursor : Cursor) : Option (Except LexicalError PlacedToken) × Cursor :=
  cursor.skipBlank.read

/-- Skipping blank characters leaves no more to read than there was. -/
theorem length_rest_skipBlank_le (cursor : Cursor) :
    cursor.skipBlank.rest.length ≤ cursor.rest.length :=
  (List.dropWhile_suffix _).length_le

/-- A token read is that of the lexeme where the cursor stands. -/
theorem exists_lexeme_of_read {cursor after : Cursor} {token : PlacedToken}
    (h : cursor.read = (some (.ok token), after)) :
    ∃ lexeme, Lexeme.scan? cursor.rest = some (lexeme, after.rest) ∧
      lexeme.token? = some token.token ∧ token.position = cursor.position ∧
      after.position = cursor.position + Text.byteLength lexeme.text := by
  unfold read at h
  split at h
  · cases h
  · split at h
    · cases h
    · rename_i lexeme rest hscanned
      split at h
      · cases h
      · rename_i found htoken
        cases h
        exact ⟨lexeme, hscanned, htoken, rfl, rfl⟩

/-- A token read leaves less to read. -/
theorem length_rest_lt_of_read {cursor after : Cursor} {token : PlacedToken}
    (h : cursor.read = (some (.ok token), after)) : after.rest.length < cursor.rest.length := by
  obtain ⟨lexeme, hscanned, _⟩ := exists_lexeme_of_read h
  exact Lexeme.length_lt_of_scan? hscanned

/-- A token read leaves less to read, blank characters before it included. -/
theorem length_rest_lt_of_next {cursor after : Cursor} {token : PlacedToken}
    (h : cursor.next = (some (.ok token), after)) : after.rest.length < cursor.rest.length :=
  Nat.lt_of_lt_of_le (length_rest_lt_of_read h) cursor.length_rest_skipBlank_le

/-- Every token up to the end of the text, or the first error. -/
def tokens (cursor : Cursor) : Except LexicalError (List PlacedToken) :=
  match hnext : cursor.next with
  | (none, _) => .ok []
  | (some (.error error), _) => .error error
  | (some (.ok token), after) =>
    have := length_rest_lt_of_next hnext
    after.tokens.map (token :: ·)
termination_by cursor.rest.length

end Cursor

/-- The tokens of a text, or the first place where it cannot be split. -/
def tokenize (text : String) : Except LexicalError TokenStream :=
  (Cursor.start text).tokens.map fun tokens => ⟨tokens, text.utf8ByteSize⟩

end Calculator
