import Calculator.Proofs.Spelling
import Calculator.Proofs.Splitting

/-!
# Tokenizing by longest tokens

A cursor that is called again and again follows the splitting of a text into longest tokens: it
gives the tokens one at a time, then the error if there is one, and nothing from then on. So
there is only one way to split a text, and tokenizing gives its tokens or its error.
-/

namespace Calculator

namespace Cursor

/-- The answer to a call of a cursor that has been called a number of times before. -/
def call : ℕ → Cursor → Option (Except LexicalError PlacedToken)
  | 0, cursor => cursor.next.1
  | earlier + 1, cursor => call earlier cursor.next.2

/-- A cursor with nothing to read answers every call with nothing. -/
theorem call_nil (earlier position : ℕ) : call earlier ⟨[], position⟩ = none := by
  induction earlier generalizing position with
  | zero => rfl
  | succ earlier ih => exact ih position

/-- A cursor skips the blank characters up to another one. -/
theorem skipBlank_append {gap back : List Char} (hgap : ∀ c ∈ gap, Text.isBlank c = true)
    (hback : ∀ c ∈ back.head?, Text.isBlank c = false) (position : ℕ) :
    skipBlank ⟨gap ++ back, position⟩ = ⟨back, position + Text.byteLength gap⟩ := by
  obtain ⟨htake, hdrop⟩ := takeWhile_append_of_head? hgap hback
  rw [skipBlank, htake, hdrop]

/-- Where only blank characters are left, there is no next token. -/
theorem next_of_isBlank {gap : List Char} (hgap : ∀ c ∈ gap, Text.isBlank c = true)
    (position : ℕ) :
    next ⟨gap, position⟩ = (none, ⟨[], position + Text.byteLength gap⟩) := by
  have hend : ∀ c ∈ ([] : List Char).head?, Text.isBlank c = false := by simp
  have hskip := skipBlank_append hgap hend position
  rw [List.append_nil] at hskip
  rw [next, hskip]
  rfl

/-- Where a lexeme starts, it is read as a token, or its number is reported. -/
theorem read_of_scan? {cs rest : List Char} {lexeme : Lexeme}
    (h : Lexeme.scan? cs = some (lexeme, rest)) (position : ℕ) :
    read ⟨cs, position⟩ = match lexeme.token? with
      | none => (some (.error (.numberOutOfRange lexeme.text position)), ⟨[], position⟩)
      | some token => (some (.ok ⟨token, position⟩),
          ⟨rest, position + Text.byteLength lexeme.text⟩) := by
  cases cs with
  | nil => cases h
  | cons c cs =>
    simp only [read, h]
    rfl

/-- The longest token is the next one. -/
theorem next_of_isLongest {gap word rest : List Char} {token : Token}
    (hgap : ∀ c ∈ gap, Text.isBlank c = true)
    (hlongest : Lexical.IsLongest Lexical.token (word ++ rest) word)
    (hwrites : Lexical.Writes word token) (position : ℕ) :
    next ⟨gap ++ (word ++ rest), position⟩ =
      (some (.ok ⟨token, position + Text.byteLength gap⟩),
        ⟨rest, position + Text.byteLength (gap ++ word)⟩) := by
  obtain ⟨lexeme, hcomplete, rfl, htoken⟩ := Lexical.writes_iff.1 hwrites
  rw [next, skipBlank_append hgap (Lexical.isBlank_of_mem_head? hlongest),
    read_of_scan? (Lexeme.scan?_of_isLongest hcomplete hlongest), htoken, Text.byteLength_append,
    Nat.add_assoc]

/-- A number past the finite range, if it is the longest token, is an error. -/
theorem next_of_numberOutOfRange {gap rest : List Char} {numeral : Numeral}
    (hgap : ∀ c ∈ gap, Text.isBlank c = true) (hcomplete : numeral.IsComplete)
    (hlongest : Lexical.IsLongest Lexical.token (numeral.text ++ rest) numeral.text)
    (hrange : (Number.Binary64.finiteRange : ℚ) ≤ numeral.value.toRat) (position : ℕ) :
    next ⟨gap ++ (numeral.text ++ rest), position⟩ =
      (some (.error (.numberOutOfRange numeral.text (position + Text.byteLength gap))),
        ⟨[], position + Text.byteLength gap⟩) := by
  have hlexeme : (Lexeme.numeral numeral).IsComplete := hcomplete
  have hscan := Lexeme.scan?_of_isLongest hlexeme hlongest
  have htoken := Lexeme.token?_eq_none_iff.2 ⟨numeral, rfl, hrange⟩
  rw [next, skipBlank_append hgap (Lexical.isBlank_of_mem_head? hlongest)]
  exact (read_of_scan? hscan _).trans (by rw [htoken]; rfl)

/-- A character with which no token starts is an error. -/
theorem next_of_unexpectedCharacter {gap rest : List Char} {found : Char}
    (hgap : ∀ c ∈ gap, Text.isBlank c = true) (hfound : Text.isBlank found = false)
    (hnone : ∀ word ∈ Lexical.token, ¬ word <+: found :: rest) (position : ℕ) :
    next ⟨gap ++ found :: rest, position⟩ =
      (some (.error (.unexpectedCharacter found (position + Text.byteLength gap))),
        ⟨[], position + Text.byteLength gap⟩) := by
  rw [next, skipBlank_append hgap (by simpa using hfound)]
  simp only [read, Lexeme.scan?_eq_none_iff.2 hnone, finished]

/-- A cursor that has nothing left to read after a call answers the later ones with nothing. -/
theorem call_of_next_eq {cursor : Cursor} {answer : Option (Except LexicalError PlacedToken)}
    {position : ℕ} (h : cursor.next = (answer, ⟨[], position⟩)) (earlier : ℕ) :
    call earlier cursor = answer.toList[earlier]? := by
  cases earlier with
  | zero =>
    rw [call, h]
    cases answer <;> rfl
  | succ earlier =>
    rw [call, h, call_nil]
    cases answer <;> rfl

end Cursor

namespace Splits

variable {position : ℕ} {cs : List Char} {pieces : List Piece} {stop : Option LexicalError}

/-- The answers to the calls of a cursor are the tokens and the error at the end, if there is
one, and then nothing. -/
theorem call (h : Splits position cs pieces stop) (earlier : ℕ) :
    Cursor.call earlier ⟨cs, position⟩ =
      (pieces.map (.ok ·.placed) ++ stop.toList.map .error)[earlier]? := by
  induction h generalizing earlier with
  | finish hgap => exact Cursor.call_of_next_eq (Cursor.next_of_isBlank hgap _) earlier
  | token hgap hlongest hwrites _ ih =>
    have hnext := Cursor.next_of_isLongest hgap hlongest hwrites
    cases earlier with
    | zero =>
      rw [Cursor.call, hnext]
      rfl
    | succ earlier =>
      rw [Cursor.call, hnext]
      exact ih earlier
  | unexpectedCharacter hgap hfound hnone =>
    exact Cursor.call_of_next_eq (Cursor.next_of_unexpectedCharacter hgap hfound hnone _) earlier
  | numberOutOfRange hgap hcomplete hlongest hrange =>
    exact Cursor.call_of_next_eq
      (Cursor.next_of_numberOutOfRange hgap hcomplete hlongest hrange _) earlier

/-- Tokenizing gives the tokens, or the error at the end. -/
theorem tokens_eq (h : Splits position cs pieces stop) :
    Cursor.tokens ⟨cs, position⟩ = match stop with
      | none => .ok (pieces.map Piece.placed)
      | some error => .error error := by
  induction h with
  | finish hgap =>
    rw [Cursor.tokens_eq, Cursor.next_of_isBlank hgap]
    rfl
  | @token position gap word rest token pieces stop hgap hlongest hwrites _ ih =>
    rw [Cursor.tokens_eq, Cursor.next_of_isLongest hgap hlongest hwrites]
    dsimp only
    rw [ih]
    cases stop <;> rfl
  | unexpectedCharacter hgap hfound hnone =>
    rw [Cursor.tokens_eq, Cursor.next_of_unexpectedCharacter hgap hfound hnone]
  | numberOutOfRange hgap hcomplete hlongest hrange =>
    rw [Cursor.tokens_eq, Cursor.next_of_numberOutOfRange hgap hcomplete hlongest hrange]

/-- The tokens and the error are told apart among the answers. -/
theorem answers_injective {tokens tokens' : List PlacedToken} {stop stop' : Option LexicalError}
    (h : tokens.map Except.ok ++ stop.toList.map Except.error =
      tokens'.map Except.ok ++ stop'.toList.map Except.error) :
    tokens = tokens' ∧ stop = stop' := by
  induction tokens generalizing tokens' with
  | nil => cases tokens' <;> cases stop <;> cases stop' <;> simp_all
  | cons token tokens ih =>
    cases tokens' with
    | nil => cases stop' <;> simp at h
    | cons token' tokens' =>
      obtain ⟨htoken, hothers⟩ := List.cons.inj h
      obtain ⟨rfl, rfl⟩ := ih hothers
      exact ⟨by rw [Except.ok.inj htoken], rfl⟩

/-- Two ways to split a text that give the same tokens are the same. -/
theorem pieces_eq_of_placed_eq (h : Splits position cs pieces stop) {pieces' : List Piece}
    {stop' : Option LexicalError} (h' : Splits position cs pieces' stop')
    (hplaced : pieces'.map Piece.placed = pieces.map Piece.placed) : pieces' = pieces := by
  induction h generalizing pieces' with
  | finish => exact List.map_eq_nil_iff.1 hplaced
  | @token position gap word rest token pieces stop hgap hlongest hwrites _ ih =>
    generalize hcs : gap ++ (word ++ rest) = cs at h'
    cases h' with
    | @token _ gap' word' rest' token' pieces' _ hgap' hlongest' hwrites' hrest' =>
      -- the gap ends at the first character that is not blank, and the longest token is unique
      obtain ⟨htake, hdrop⟩ := takeWhile_append_of_head? hgap
        (Lexical.isBlank_of_mem_head? hlongest)
      obtain ⟨htake', hdrop'⟩ := takeWhile_append_of_head? hgap'
        (Lexical.isBlank_of_mem_head? hlongest')
      rw [hcs] at htake hdrop
      obtain rfl := htake.symm.trans htake'
      have hback := hdrop.symm.trans hdrop'
      rw [hback] at hlongest
      obtain rfl := hlongest.eq hlongest'
      obtain rfl := List.append_cancel_left hback
      obtain ⟨hfirst, hothers⟩ := List.cons.inj hplaced
      rw [ih hrest' hothers]
      exact congrArg (⟨gap, word, ·⟩ :: pieces) hfirst
    | finish => cases hplaced
    | unexpectedCharacter => cases hplaced
    | numberOutOfRange => cases hplaced
  | unexpectedCharacter => exact List.map_eq_nil_iff.1 hplaced
  | numberOutOfRange => exact List.map_eq_nil_iff.1 hplaced

/-- There is only one way to split a text. -/
theorem unique (h : Splits position cs pieces stop) {pieces' : List Piece}
    {stop' : Option LexicalError} (h' : Splits position cs pieces' stop') :
    pieces' = pieces ∧ stop' = stop := by
  have hanswers : (pieces'.map Piece.placed).map Except.ok ++ stop'.toList.map Except.error =
      (pieces.map Piece.placed).map Except.ok ++ stop.toList.map Except.error := by
    refine List.ext_getElem? fun earlier => ?_
    rw [List.map_map, List.map_map]
    exact (h'.call earlier).symm.trans (h.call earlier)
  obtain ⟨hplaced, hstop⟩ := answers_injective hanswers
  exact ⟨h.pieces_eq_of_placed_eq h' hplaced, hstop⟩

/-- What is left after the pieces is split into no pieces. -/
theorem rest (h : Splits position cs pieces stop) {back : List Char}
    (hback : cs = pieces.flatMap Piece.text ++ back) :
    Splits (position + Text.byteLength (pieces.flatMap Piece.text)) back [] stop := by
  induction h with
  | finish hgap =>
    obtain rfl := hback
    exact .finish hgap
  | @token position gap word rest token pieces stop hgap hlongest hwrites _ ih =>
    have hrest : rest = pieces.flatMap Piece.text ++ back := by
      simpa [Piece.text] using hback
    rw [List.flatMap_cons, Piece.text, Text.byteLength_append (gap ++ word), ← Nat.add_assoc]
    exact ih hrest
  | unexpectedCharacter hgap hfound hnone =>
    obtain rfl := hback
    exact .unexpectedCharacter hgap hfound hnone
  | numberOutOfRange hgap hcomplete hlongest hrange =>
    obtain rfl := hback
    exact .numberOutOfRange hgap hcomplete hlongest hrange

end Splits

/-- No token starts at a point that no digit follows. -/
theorem Lexical.not_isPrefix_point {rest : List Char}
    (hrest : ∀ c ∈ rest.head?, c.isDigit = false) :
    ∀ word ∈ token, ¬ word <+: '.' :: rest := by
  apply Lexeme.scan?_eq_none_iff.1
  have hdigits : Numeral.scanDigits ('.' :: rest) = (([], none), '.' :: rest) := by
    simp [Numeral.scanDigits, (takeWhile_of_head? hrest).1]
  have hnumeral : Numeral.scan? ('.' :: rest) = none := by
    rw [Numeral.scan?, hdigits]
  rw [Lexeme.scan?, hnumeral]
  rfl

/-- Tokenizing takes the longest token again and again. Every text is split in exactly one way:
the blank characters are skipped and the longest token is taken, up to the end of the text, or to
a character with which no token starts, or to a number past the finite range, whichever comes
first. Tokenizing gives the tokens of this splitting or the error at its end, and a cursor gives
these tokens and this error one at a time and then nothing, however often it is called. The words
of the tokens and the blank characters between them make up the text, every token stands at the
byte offset of its first character, and the offsets increase up to the end of the text or the
error. A point that no digit follows is such a character where it stands in the place of a
token. -/
theorem tokenize_splits (text : String) :
    ∃ pieces stop, Splits 0 text.toList pieces stop ∧
      (∀ pieces' stop', Splits 0 text.toList pieces' stop' →
        pieces' = pieces ∧ stop' = stop) ∧
      (tokenize text = match stop with
        | none => .ok ⟨pieces.map Piece.placed, text.utf8ByteSize⟩
        | some error => .error error) ∧
      (∀ earlier, (Cursor.start text).call earlier =
        (pieces.map (.ok ·.placed) ++ stop.toList.map .error)[earlier]?) ∧
      (∃ gap rest, (∀ c ∈ gap, Text.isBlank c = true) ∧
        text.toList = pieces.flatMap Piece.text ++ (gap ++ rest) ∧ (stop = none → rest = []) ∧
        ∀ error ∈ stop,
          error.position = Text.byteLength (pieces.flatMap Piece.text ++ gap)) ∧
      (∀ before piece after, pieces = before ++ piece :: after →
        piece.placed.position = Text.byteLength (before.flatMap Piece.text ++ piece.gap)) ∧
      (offsets pieces stop text.utf8ByteSize).Pairwise (· < ·) ∧
      ∀ gap rest, (∀ c ∈ gap, Text.isBlank c = true) → (∀ c ∈ rest.head?, c.isDigit = false) →
        text.toList = pieces.flatMap Piece.text ++ (gap ++ '.' :: rest) →
        stop = some (.unexpectedCharacter '.'
          (Text.byteLength (pieces.flatMap Piece.text ++ gap))) := by
  obtain ⟨pieces, stop, h⟩ := Splits.exists_splits 0 text.toList
  refine ⟨pieces, stop, h, fun _ _ h' => h.unique h', ?_, h.call, ?_, ?_, ?_, ?_⟩
  · rw [tokenize, Cursor.start, h.tokens_eq]
    cases stop <;> rfl
  · simpa using h.exists_text_eq
  · intro before piece after hpieces
    simpa using h.position_eq hpieces
  · have hpairwise := h.pairwise_offsets.1
    rwa [Nat.zero_add, Text.byteLength_toList] at hpairwise
  · intro gap rest hgap hrest htext
    have hpoint : Splits (0 + Text.byteLength (pieces.flatMap Piece.text)) (gap ++ '.' :: rest)
        [] _ := .unexpectedCharacter hgap (by decide) (Lexical.not_isPrefix_point hrest)
    rw [(hpoint.unique (h.rest htext)).2, Nat.zero_add, Text.byteLength_append]

end Calculator
