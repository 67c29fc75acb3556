import Calculator.Proofs.DecimalValue
import Calculator.Proofs.LongestToken

/-!
# Texts split into longest tokens

A text is split by skipping the blank characters and taking the longest token of what is left,
again and again. This goes on to the end of the text, or to the first character with which no
token starts, or to the first number past the finite range.

Every text is split in some way. The pieces make up the text, each token stands where the
characters before it end, and so the places of the tokens increase.
-/

namespace Calculator

/-- A word of the language stands for a token: a number for the nearest finite number, an
identifier for itself, and the symbol of a mark for the mark. -/
inductive Lexical.Writes : List Char → Token → Prop
  | number {numeral : Numeral} {value : Float} (hcomplete : numeral.IsComplete)
      (hvalue : numeral.value.toFloat? = some value) : Writes numeral.text (.number value)
  | identifier {word : List Char} (hword : word ∈ Lexical.identifier) :
      Writes word (.identifier (String.ofList word))
  | mark (written : Mark) : Writes [written.symbol] (.mark written)

/-- A token in a text, with the word that writes it and the blank characters before it. -/
structure Piece where
  gap : List Char
  word : List Char
  placed : PlacedToken

/-- The characters of a piece. -/
def Piece.text (piece : Piece) : List Char :=
  piece.gap ++ piece.word

/-- The byte offset at which a text cannot be split further. -/
def LexicalError.position : LexicalError → ℕ
  | unexpectedCharacter _ position => position
  | numberOutOfRange _ position => position

/-- The byte offsets of the tokens, and that of the end of the text or of the error there. -/
def offsets (pieces : List Piece) (stop : Option LexicalError) (size : ℕ) : List ℕ :=
  pieces.map (·.placed.position) ++ [stop.elim size LexicalError.position]

/-- A text that starts at a byte offset is split into longest tokens up to its end, or up to an
error. -/
inductive Splits : ℕ → List Char → List Piece → Option LexicalError → Prop
  /-- Only blank characters are left. -/
  | finish {position : ℕ} {gap : List Char} (hgap : ∀ c ∈ gap, Text.isBlank c = true) :
      Splits position gap [] none
  /-- After blank characters the longest token is taken. -/
  | token {position : ℕ} {gap word rest : List Char} {token : Token} {pieces : List Piece}
      {stop : Option LexicalError} (hgap : ∀ c ∈ gap, Text.isBlank c = true)
      (hlongest : Lexical.IsLongest Lexical.token (word ++ rest) word)
      (hwrites : Lexical.Writes word token)
      (hrest : Splits (position + Text.byteLength (gap ++ word)) rest pieces stop) :
      Splits position (gap ++ (word ++ rest))
        (⟨gap, word, ⟨token, position + Text.byteLength gap⟩⟩ :: pieces) stop
  /-- After blank characters there is another character, but no token. -/
  | unexpectedCharacter {position : ℕ} {gap rest : List Char} {found : Char}
      (hgap : ∀ c ∈ gap, Text.isBlank c = true) (hfound : Text.isBlank found = false)
      (hnone : ∀ word ∈ Lexical.token, ¬ word <+: found :: rest) :
      Splits position (gap ++ found :: rest) []
        (some (.unexpectedCharacter found (position + Text.byteLength gap)))
  /-- After blank characters the longest token is a number past the finite range. -/
  | numberOutOfRange {position : ℕ} {gap rest : List Char} {numeral : Numeral}
      (hgap : ∀ c ∈ gap, Text.isBlank c = true) (hcomplete : numeral.IsComplete)
      (hlongest : Lexical.IsLongest Lexical.token (numeral.text ++ rest) numeral.text)
      (hrange : (Number.Binary64.finiteRange : ℚ) ≤ numeral.value.toRat) :
      Splits position (gap ++ (numeral.text ++ rest)) []
        (some (.numberOutOfRange numeral.text (position + Text.byteLength gap)))

/-- What a word stands for is the token of the complete lexeme with its characters. -/
theorem Lexical.writes_iff {word : List Char} {token : Token} :
    Writes word token ↔
      ∃ lexeme : Lexeme, lexeme.IsComplete ∧ lexeme.text = word ∧ lexeme.token? = some token := by
  constructor
  · rintro (⟨hcomplete, hvalue⟩ | hword | written)
    · exact ⟨.numeral _, hcomplete, rfl, by simp [Lexeme.token?, hvalue]⟩
    · exact ⟨.identifier word, mem_identifier.1 hword, rfl, rfl⟩
    · exact ⟨.mark written, trivial, rfl, rfl⟩
  · rintro ⟨numeral | name | written, hcomplete, rfl, htoken⟩
    · obtain ⟨value, hvalue, rfl⟩ := Option.map_eq_some_iff.1 htoken
      exact .number hcomplete hvalue
    · cases htoken
      exact .identifier (mem_identifier.2 hcomplete)
    · cases htoken
      exact .mark written

/-- The lexemes that are no tokens are the numbers past the finite range. -/
theorem Lexeme.token?_eq_none_iff {lexeme : Lexeme} :
    lexeme.token? = none ↔ ∃ numeral : Numeral, lexeme = .numeral numeral ∧
      (Number.Binary64.finiteRange : ℚ) ≤ numeral.value.toRat := by
  constructor
  · intro h
    cases lexeme with
    | numeral written =>
      exact ⟨written, rfl, Number.Decimal.toFloat?_eq_none_iff.1 (Option.map_eq_none_iff.1 h)⟩
    | identifier name => cases h
    | mark written => cases h
  · rintro ⟨numeral, rfl, hrange⟩
    exact Option.map_eq_none_iff.2 (Number.Decimal.toFloat?_eq_none_iff.2 hrange)

/-- A token starts with a character that is not blank. -/
theorem Lexical.exists_cons_of_mem_token {word : List Char} (h : word ∈ token) :
    ∃ c cs, word = c :: cs ∧ Text.isBlank c = false := by
  obtain ⟨lexeme, hcomplete, rfl⟩ := mem_token.1 h
  cases lexeme with
  | numeral written => exact Numeral.IsComplete.exists_cons_text hcomplete
  | identifier name => exact exists_cons_of_isIdentifier hcomplete
  | mark written => exact ⟨written.symbol, [], rfl, written.isBlank_symbol⟩

/-- A text that starts with a token does not start with a blank character. -/
theorem Lexical.isBlank_of_mem_head? {word rest : List Char}
    (h : IsLongest token (word ++ rest) word) :
    ∀ c ∈ (word ++ rest).head?, Text.isBlank c = false := by
  obtain ⟨c, cs, rfl, hblank⟩ := exists_cons_of_mem_token h.mem
  simpa using hblank

/-- A token takes up bytes. -/
theorem Lexical.byteLength_pos_of_mem_token {word : List Char} (h : word ∈ token) :
    0 < Text.byteLength word := by
  obtain ⟨c, cs, rfl, _⟩ := exists_cons_of_mem_token h
  exact Nat.add_pos_left c.utf8Size_pos _

namespace Splits

variable {position : ℕ} {cs : List Char} {pieces : List Piece} {stop : Option LexicalError}

/-- A text starts with a gap of blank characters that another character or the end follows. -/
theorem exists_gap (cs : List Char) :
    ∃ gap back, gap ++ back = cs ∧ (∀ c ∈ gap, Text.isBlank c = true) ∧
      ∀ c ∈ back.head?, Text.isBlank c = false := by
  refine ⟨cs.takeWhile Text.isBlank, cs.dropWhile Text.isBlank,
    List.takeWhile_append_dropWhile, fun c hc => List.mem_takeWhile_imp hc, fun c hc => ?_⟩
  have hhead := List.head?_dropWhile_not Text.isBlank cs
  rwa [hc] at hhead

/-- Every text is split in some way. -/
theorem exists_splits (position : ℕ) (cs : List Char) :
    ∃ pieces stop, Splits position cs pieces stop := by
  induction hlength : cs.length using Nat.strong_induction_on generalizing position cs with
  | _ length ih =>
    obtain ⟨gap, back, rfl, hgap, hback⟩ := exists_gap cs
    cases hscan : Lexeme.scan? back with
    | none =>
      cases back with
      | nil => exact ⟨[], none, by rw [List.append_nil]; exact .finish hgap⟩
      | cons found rest =>
        have hnone := Lexeme.scan?_eq_none_iff.1 hscan
        exact ⟨[], _, .unexpectedCharacter hgap (hback found rfl) hnone⟩
    | some found =>
      obtain ⟨lexeme, rest⟩ := found
      have hcomplete := Lexeme.isComplete_of_scan? hscan
      have hlongest := Lexeme.isLongest_of_scan? hscan
      have hshorter : rest.length < length := by
        have hscanned := Lexeme.length_lt_of_scan? hscan
        rw [← hlength, List.length_append]
        omega
      rw [← Lexeme.text_append_of_scan? hscan] at hlongest ⊢
      cases htoken : lexeme.token? with
      | none =>
        obtain ⟨numeral, rfl, hrange⟩ := Lexeme.token?_eq_none_iff.1 htoken
        exact ⟨[], _, .numberOutOfRange hgap hcomplete hlongest hrange⟩
      | some token =>
        have hwrites := Lexical.writes_iff.2 ⟨lexeme, hcomplete, rfl, htoken⟩
        obtain ⟨pieces, stop, hrest⟩ := ih rest.length hshorter
          (position + Text.byteLength (gap ++ lexeme.text)) rest rfl
        exact ⟨_, stop, .token hgap hlongest hwrites hrest⟩

/-- The bytes of the first piece come before those of the others. -/
theorem byteLength_flatMap_cons (position : ℕ) (piece : Piece) (pieces : List Piece)
    (back : List Char) :
    position + Text.byteLength ((piece :: pieces).flatMap Piece.text ++ back) =
      position + Text.byteLength (piece.gap ++ piece.word) +
        Text.byteLength (pieces.flatMap Piece.text ++ back) := by
  rw [List.flatMap_cons, Piece.text, List.append_assoc (piece.gap ++ piece.word),
    Text.byteLength_append (piece.gap ++ piece.word), Nat.add_assoc]

/-- The pieces make up the text up to where it ends or cannot be split further. -/
theorem exists_text_eq (h : Splits position cs pieces stop) :
    ∃ gap rest, (∀ c ∈ gap, Text.isBlank c = true) ∧
      cs = pieces.flatMap Piece.text ++ (gap ++ rest) ∧ (stop = none → rest = []) ∧
      ∀ error ∈ stop,
        error.position = position + Text.byteLength (pieces.flatMap Piece.text ++ gap) := by
  induction h with
  | @finish position gap hgap => exact ⟨gap, [], hgap, by simp, by simp, by simp⟩
  | @token position gap word rest token pieces stop hgap hlongest hwrites _ ih =>
    obtain ⟨gap', rest', hgap', rfl, hend, hposition⟩ := ih
    refine ⟨gap', rest', hgap', by simp [Piece.text], hend, fun error herror => ?_⟩
    rw [hposition error herror, byteLength_flatMap_cons]
  | @unexpectedCharacter position gap rest found hgap =>
    exact ⟨gap, found :: rest, hgap, rfl, by simp, by simp [LexicalError.position]⟩
  | @numberOutOfRange position gap rest numeral hgap =>
    exact ⟨gap, numeral.text ++ rest, hgap, rfl, by simp, by simp [LexicalError.position]⟩

/-- A token stands where the characters before it end. -/
theorem position_eq (h : Splits position cs pieces stop) {before after : List Piece}
    {piece : Piece} (hpieces : pieces = before ++ piece :: after) :
    piece.placed.position =
      position + Text.byteLength (before.flatMap Piece.text ++ piece.gap) := by
  induction h generalizing before with
  | finish => simp at hpieces
  | @token position gap word rest token pieces stop hgap hlongest hwrites _ ih =>
    cases before with
    | nil =>
      obtain ⟨rfl, _⟩ := List.cons.inj hpieces
      rfl
    | cons first before =>
      obtain ⟨rfl, hothers⟩ := List.cons.inj hpieces
      rw [ih hothers, byteLength_flatMap_cons]
  | unexpectedCharacter => simp at hpieces
  | numberOutOfRange => simp at hpieces

/-- Every token stands before the next one, and before the end of the text or the error. -/
theorem pairwise_offsets (h : Splits position cs pieces stop) :
    (offsets pieces stop (position + Text.byteLength cs)).Pairwise (· < ·) ∧
      ∀ offset ∈ offsets pieces stop (position + Text.byteLength cs), position ≤ offset := by
  induction h with
  | finish => simp [offsets]
  | @token position gap word rest token pieces stop hgap hlongest hwrites _ ih =>
    obtain ⟨hpairwise, hle⟩ := ih
    have hword := Lexical.byteLength_pos_of_mem_token hlongest.mem
    have hsize : position + Text.byteLength (gap ++ word) + Text.byteLength rest =
        position + Text.byteLength (gap ++ (word ++ rest)) := by
      simp only [Text.byteLength_append, Nat.add_assoc]
    rw [hsize] at hpairwise hle
    have hlt : ∀ offset ∈ offsets pieces stop
        (position + Text.byteLength (gap ++ (word ++ rest))),
        position + Text.byteLength gap < offset := by
      intro offset hoffset
      have hbehind := hle offset hoffset
      rw [Text.byteLength_append] at hbehind
      omega
    refine ⟨List.pairwise_cons.2 ⟨hlt, hpairwise⟩, List.forall_mem_cons.2 ⟨?_, ?_⟩⟩
    · exact Nat.le_add_right _ _
    · intro offset hoffset
      exact Nat.le_trans (Nat.le_add_right _ _) (hlt offset hoffset).le
  | unexpectedCharacter => simp [offsets, LexicalError.position]
  | numberOutOfRange => simp [offsets, LexicalError.position]

end Splits

end Calculator
