import Calculator.Proofs.Lexemes
import Mathlib.Data.Nat.Notation

/-!
# Texts that spell tokens

A text spells tokens if reading it yields these tokens before it goes on with the text after
it. What spells tokens can be put together, as long as a name or a number is cut off by the
text that follows. A spelled text as a whole is split into the tokens that it spells.
-/

namespace Calculator

namespace Cursor

/-- The tokens of a text are the next token and those after it, or the error met. -/
theorem tokens_eq (cursor : Cursor) :
    cursor.tokens = match cursor.next with
      | (none, _) => .ok []
      | (some (.error error), _) => .error error
      | (some (.ok token), after) => after.tokens.map (token :: ·) := by
  rw [tokens]
  split <;> simp_all

/-- What holds of no tokens at the end of a text, and of a token read and those after it if it
holds of these, holds of all tokens of a text. -/
theorem tokens_induction {motive : Cursor → List PlacedToken → Prop}
    (hend : ∀ cursor after, cursor.next = (none, after) → motive cursor [])
    (hstep : ∀ cursor token after placed, cursor.next = (some (.ok token), after) →
      motive after placed → motive cursor (token :: placed))
    (cursor : Cursor) {placed : List PlacedToken} (h : cursor.tokens = .ok placed) :
    motive cursor placed := by
  induction cursor using Cursor.tokens.induct generalizing placed with
  | case1 cursor after hnext =>
    rw [tokens_eq, hnext] at h
    cases h
    exact hend cursor after hnext
  | case2 cursor error after hnext =>
    rw [tokens_eq, hnext] at h
    cases h
  | case3 cursor token after hnext _ ih =>
    rw [tokens_eq, hnext] at h
    cases hothers : after.tokens with
    | error error => simp [hothers, Except.map] at h
    | ok others =>
      simp only [hothers, Except.map, Except.ok.injEq] at h
      rw [← h]
      exact hstep cursor token after others hnext (ih hothers)

/-- There are no tokens at the end of a text. -/
@[simp] theorem tokens_nil (position : ℕ) : tokens ⟨[], position⟩ = .ok [] := by
  rw [tokens_eq]
  rfl

/-- A blank character has no part in the tokens. -/
theorem tokens_blank_cons {c : Char} (h : Text.isBlank c = true) (rest : List Char)
    (position : ℕ) : tokens ⟨c :: rest, position⟩ = tokens ⟨rest, position + c.utf8Size⟩ := by
  have hnext : next ⟨c :: rest, position⟩ = next ⟨rest, position + c.utf8Size⟩ := by
    simp only [next, skipBlank, List.dropWhile_cons_of_pos h, List.takeWhile_cons_of_pos h,
      Text.byteLength, Nat.add_assoc]
  rw [tokens_eq, hnext, ← tokens_eq]

/-- The lexeme where a cursor stands, if it is a token, is the first token. -/
theorem tokens_of_scan? {c : Char} {rest after : List Char} {lexeme : Lexeme} {token : Token}
    (hblank : Text.isBlank c = false) (hscan : Lexeme.scan? (c :: rest) = some (lexeme, after))
    (htoken : lexeme.token? = some token) (position : ℕ) :
    tokens ⟨c :: rest, position⟩ =
      (tokens ⟨after, position + Text.byteLength lexeme.text⟩).map
        ((⟨token, position⟩ : PlacedToken) :: ·) := by
  have hnot : ¬ Text.isBlank c = true := by simp [hblank]
  rw [tokens_eq]
  simp only [next, skipBlank, List.dropWhile_cons_of_neg hnot, List.takeWhile_cons_of_neg hnot,
    Text.byteLength, Nat.add_zero, read, hscan, htoken]

end Cursor

/-- Reading a text in front of another that cuts yields the tokens and goes on after it. -/
def Spells (text : List Char) (tokens : List Token) : Prop :=
  ∀ rest position, Cuts rest → ∃ placed : List PlacedToken,
    placed.map PlacedToken.token = tokens ∧
      Cursor.tokens ⟨text ++ rest, position⟩ =
        (Cursor.tokens ⟨rest, position + Text.byteLength text⟩).map (placed ++ ·)

namespace Spells

/-- Putting tokens in front of the result of reading, twice. -/
theorem map_append_map_append {α : Type} (result : Except LexicalError (List α))
    (front back : List α) :
    (result.map (back ++ ·)).map (front ++ ·) = result.map (front ++ back ++ ·) := by
  cases result <;> simp [Except.map]

/-- A text that cuts off another can be put after it. -/
theorem append {front back : List Char} {tokens tokens' : List Token}
    (hfront : Spells front tokens) (hback : Spells back tokens')
    (hcuts : ∀ rest, Cuts rest → Cuts (back ++ rest)) :
    Spells (front ++ back) (tokens ++ tokens') := by
  intro rest position hrest
  obtain ⟨placed, rfl, hread⟩ := hfront (back ++ rest) position (hcuts rest hrest)
  obtain ⟨placed', rfl, hread'⟩ :=
    hback rest (position + Text.byteLength front) hrest
  refine ⟨placed ++ placed', by simp, ?_⟩
  rw [List.append_assoc, hread, hread', map_append_map_append, Text.byteLength_append,
    Nat.add_assoc]

/-- A mark can be put before any text. -/
theorem mark_cons (written : Mark) {text : List Char} {tokens : List Token}
    (h : Spells text tokens) : Spells (written.symbol :: text) (.mark written :: tokens) := by
  intro rest position hrest
  obtain ⟨placed, rfl, hread⟩ := h rest (position + Text.byteLength [written.symbol]) hrest
  refine ⟨⟨.mark written, position⟩ :: placed, rfl, ?_⟩
  have hposition : position + Text.byteLength (written.symbol :: text) =
      position + Text.byteLength [written.symbol] + Text.byteLength text := by
    simp only [Text.byteLength]
    omega
  rw [List.cons_append, Cursor.tokens_of_scan? written.isBlank_symbol
    (Lexeme.scan?_symbol_cons written (text ++ rest)) rfl, Lexeme.text, hread, hposition]
  exact map_append_map_append _ [_] placed

/-- A space can be put before any text. -/
theorem space_cons {text : List Char} {tokens : List Token} (h : Spells text tokens) :
    Spells (' ' :: text) tokens := by
  intro rest position hrest
  obtain ⟨placed, htokens, hread⟩ := h rest (position + (' ').utf8Size) hrest
  refine ⟨placed, htokens, ?_⟩
  rw [List.cons_append, Cursor.tokens_blank_cons (by decide), hread, Text.byteLength,
    Nat.add_assoc]

/-- An empty text spells no tokens. -/
theorem nil : Spells [] [] := fun rest position _ => ⟨[], rfl, by
  cases h : Cursor.tokens ⟨rest, position⟩ <;> simp [Except.map, h, Text.byteLength]⟩

/-- A mark spells itself. -/
theorem mark (written : Mark) : Spells [written.symbol] [.mark written] :=
  mark_cons written nil

/-- A lexeme that is found in front of every text that cuts spells its token. -/
theorem lexeme {lexeme : Lexeme} {token : Token} (htoken : lexeme.token? = some token)
    (hblank : ∃ c cs, lexeme.text = c :: cs ∧ Text.isBlank c = false)
    (hscan : ∀ rest, Cuts rest → Lexeme.scan? (lexeme.text ++ rest) = some (lexeme, rest)) :
    Spells lexeme.text [token] := by
  intro rest position hrest
  obtain ⟨c, cs, htext, hblank⟩ := hblank
  have hscan := hscan rest hrest
  rw [htext, List.cons_append] at hscan
  refine ⟨[⟨token, position⟩], rfl, ?_⟩
  have hread := Cursor.tokens_of_scan? hblank hscan htoken position
  rw [htext] at hread ⊢
  exact hread

/-- An identifier spells its name. -/
theorem identifier {name : String} (h : isIdentifier name.toList = true) :
    Spells name.toList [.identifier name] := by
  have htoken : (Lexeme.identifier name.toList).token? = some (.identifier name) := by
    simp [Lexeme.token?]
  exact lexeme htoken (exists_cons_of_isIdentifier h) fun rest hrest =>
    Lexeme.scan?_identifier_append h hrest

/-- A complete numeral within the finite range spells its value. -/
theorem numeral {numeral : Numeral} (h : numeral.IsComplete) {value : Float}
    (hvalue : numeral.value.toFloat? = some value) : Spells numeral.text [.number value] := by
  have htoken : (Lexeme.numeral numeral).token? = some (.number value) := by
    simp [Lexeme.token?, hvalue]
  exact lexeme htoken h.exists_cons_text fun rest hrest =>
    Lexeme.scan?_numeral_append h hrest

/-- An operator between two texts spells it between their tokens. -/
theorem operation {left right : List Char} {tokens tokens' : List Token}
    (hleft : Spells left tokens) (op : Operator) (hright : Spells right tokens') :
    Spells (left ++ [' ', op.symbol, ' '] ++ right)
      (tokens ++ .mark (.operator op) :: tokens') := by
  have hback := space_cons (mark_cons (.operator op) (space_cons hright))
  have happend := hleft.append hback fun rest _ => cuts_cons (by decide) (by decide) _
  simpa [Mark.symbol] using happend

/-- Parentheses around a text spell themselves around its tokens. -/
theorem group {text : List Char} {tokens : List Token} (h : Spells text tokens) :
    Spells ('(' :: text ++ [')']) (.mark .opening :: (tokens ++ [.mark .closing])) :=
  mark_cons .opening (h.append (mark .closing) fun rest _ => cuts_cons (by decide) (by decide) _)

/-- A name in front of parentheses spells the call. -/
theorem call {name : String} (hname : isIdentifier name.toList = true) {text : List Char}
    {tokens : List Token} (h : Spells text tokens) :
    Spells (name.toList ++ '(' :: text ++ [')'])
      (.identifier name :: .mark .opening :: (tokens ++ [.mark .closing])) := by
  have happend := (identifier hname).append h.group fun rest _ =>
    cuts_cons (by decide) (by decide) _
  simpa using happend

/-- A comma and a space between two texts spell the comma between their tokens. -/
theorem comma {first others : List Char} {tokens tokens' : List Token}
    (hfirst : Spells first tokens) (hothers : Spells others tokens') :
    Spells (first ++ [',', ' '] ++ others) (tokens ++ .mark .comma :: tokens') := by
  have hback := mark_cons .comma (space_cons hothers)
  have happend := hfirst.append hback fun rest _ => cuts_cons (by decide) (by decide) _
  simpa [Mark.symbol] using happend

end Spells

/-- The tokens of a text are those of a cursor at its start. -/
theorem tokens_start_of_tokenize {text : String} {stream : TokenStream}
    (h : tokenize text = .ok stream) : (Cursor.start text).tokens = .ok stream.tokens := by
  unfold tokenize at h
  cases hread : (Cursor.start text).tokens with
  | error error => simp [hread, Except.map] at h
  | ok placed =>
    simp only [hread, Except.map, Except.ok.injEq] at h
    rw [← h]

/-- A text that spells tokens is split into these. -/
theorem tokenize_of_spells {text : String} {tokens : List Token}
    (h : Spells text.toList tokens) : ∃ stream, tokenize text = .ok stream ∧
      stream.tokens.map PlacedToken.token = tokens := by
  obtain ⟨placed, rfl, hread⟩ := h [] 0 cuts_nil
  rw [List.append_nil, Cursor.tokens_nil] at hread
  refine ⟨⟨placed, text.utf8ByteSize⟩, ?_, rfl⟩
  unfold tokenize Cursor.start
  rw [hread]
  simp [Except.map]

end Calculator
