import Calculator.Proofs.Acceptance
import Calculator.Proofs.Tokenizing

/-!
# Blank characters between texts

No word of a token has a blank character in it. So blank characters cut every token: whatever
comes after them, the tokens before them are the longest ones still, and so is the place where no
token starts or where a number is past the finite range.

Two texts with blank characters between them are therefore tokenized one after the other, the
second from where it starts. Tokens do not depend on the blank characters between them then, and
neither does the formula that is read from them.
-/

namespace Calculator

open Computability

namespace Lexical

/-- No word of a language has a blank character in it. -/
def IsUnbroken (language : Language Char) : Prop :=
  ∀ word ∈ language, ∀ c ∈ word, Text.isBlank c = false

namespace IsUnbroken

variable {language other : Language Char}

/-- The empty word has no character. -/
theorem one : IsUnbroken 1 := by
  rintro word rfl c hc
  cases hc

/-- A word of a single character is not blank if the character is not. -/
theorem single {kind : Char → Prop} (h : ∀ c, kind c → Text.isBlank c = false) :
    IsUnbroken (single kind) := by
  rintro word ⟨c, hc, rfl⟩ d hd
  rw [List.mem_singleton.1 hd]
  exact h c hc

/-- A word of one of some symbols is not blank if none of them is. -/
theorem ofSymbols {symbols : List Char} (h : symbols.any Text.isBlank = false) :
    IsUnbroken (Lexical.single (· ∈ symbols)) :=
  .single fun c hc => Bool.eq_false_iff.2 (List.any_eq_false.1 h c hc)

/-- A word of either language is unbroken. -/
theorem add (h : IsUnbroken language) (hother : IsUnbroken other) :
    IsUnbroken (language + other) := by
  rintro word (hword | hword)
  · exact h word hword
  · exact hother word hword

/-- Unbroken words one after the other are unbroken. -/
theorem mul (h : IsUnbroken language) (hother : IsUnbroken other) :
    IsUnbroken (language * other) := by
  intro word hword
  obtain ⟨front, hfront, back, hback, rfl⟩ := Language.mem_mul.1 hword
  exact List.forall_mem_append.2 ⟨h front hfront, hother back hback⟩

/-- Any number of unbroken words one after the other are unbroken. -/
theorem kstar (h : IsUnbroken language) : IsUnbroken (language∗) := by
  intro word hword c hc
  obtain ⟨words, rfl, hwords⟩ := Language.mem_kstar.1 hword
  obtain ⟨part, hpart, hmem⟩ := List.mem_flatten.1 hc
  exact h part (hwords part hpart) c hmem

/-- A character between two visible ones of ASCII is not blank. -/
theorem isBlank_eq_false_of_le {low high c : Char} (hvisible : 0x20 < low.toNat)
    (hascii : high.toNat < 0x7F) (hlow : low ≤ c) (hhigh : c ≤ high) :
    Text.isBlank c = false :=
  isBlank_eq_false (Nat.lt_of_lt_of_le hvisible hlow) (Nat.lt_of_le_of_lt hhigh hascii)

/-- A digit is not blank. -/
theorem digit : IsUnbroken digit :=
  .single fun _ ⟨hlow, hhigh⟩ => isBlank_eq_false_of_le (by decide) (by decide) hlow hhigh

/-- Digits are unbroken. -/
theorem digits : IsUnbroken digits :=
  digit.mul digit.kstar

/-- A letter is not blank. -/
theorem letter : IsUnbroken letter := by
  refine .single fun c hc => ?_
  rcases hc with ⟨hlow, hhigh⟩ | ⟨hlow, hhigh⟩ | rfl
  · exact isBlank_eq_false_of_le (by decide) (by decide) hlow hhigh
  · exact isBlank_eq_false_of_le (by decide) (by decide) hlow hhigh
  · decide

/-- A number is unbroken. -/
theorem number : IsUnbroken number := by
  have hpoint : IsUnbroken (Lexical.single (· = '.')) := .single (by rintro c rfl; decide)
  have hsignificand : IsUnbroken significand :=
    (digits.mul (one.add (hpoint.mul digit.kstar))).add (hpoint.mul digits)
  have hletter : IsUnbroken (Lexical.single (· ∈ ['e', 'E'])) := .ofSymbols (by decide)
  have hsign : IsUnbroken (Lexical.single (· ∈ ['+', '-'])) := .ofSymbols (by decide)
  exact hsignificand.mul (one.add ((hletter.mul (one.add hsign)).mul digits))

/-- A token is unbroken. -/
theorem token : IsUnbroken token := by
  have hidentifier : IsUnbroken identifier := letter.mul (letter.add digit).kstar
  have hmark : IsUnbroken mark := .ofSymbols (by decide)
  exact (number.add hidentifier).add hmark

end IsUnbroken

/-- An unbroken word at the start of a text is in front of the first blank character. -/
theorem IsUnbroken.isPrefix {language : Language Char} (h : IsUnbroken language)
    {word front gap back : List Char} (hword : word ∈ language) (hne : gap ≠ [])
    (hgap : ∀ c ∈ gap, Text.isBlank c = true) (hstarts : word <+: front ++ (gap ++ back)) :
    word <+: front := by
  rcases List.prefix_or_prefix_of_prefix hstarts (List.prefix_append front _) with
    hfits | ⟨more, rfl⟩
  · exact hfits
  · -- The word would go on with the first blank character.
    cases more with
    | nil => rw [List.append_nil]
    | cons c more =>
      obtain ⟨blank, others, rfl⟩ := List.exists_cons_of_ne_nil hne
      obtain ⟨rfl, _⟩ := List.cons_prefix_cons.1 ((List.prefix_append_right_inj front).1 hstarts)
      have hvisible := h _ hword c (List.mem_append_right front List.mem_cons_self)
      rw [hgap c List.mem_cons_self] at hvisible
      cases hvisible

/-- The longest token at the start of a text is still the longest when blank characters and
another text come after it. -/
theorem IsLongest.append_gap {text word gap : List Char} (h : IsLongest token text word)
    (hne : gap ≠ []) (hgap : ∀ c ∈ gap, Text.isBlank c = true) (back : List Char) :
    IsLongest token (text ++ (gap ++ back)) word where
  mem := h.mem
  starts := h.starts.trans (List.prefix_append text _)
  longest other hother hstarts :=
    h.longest other hother (IsUnbroken.token.isPrefix hother hne hgap hstarts)

/-- The longest word at the start of a text is the longest one at the start of a part of it. -/
theorem IsLongest.of_append {language : Language Char} {front back word : List Char}
    (h : IsLongest language (front ++ back) word) (hstarts : word <+: front) :
    IsLongest language front word where
  mem := h.mem
  starts := hstarts
  longest other hother hfits :=
    h.longest other hother (hfits.trans (List.prefix_append front back))

end Lexical

/-- The same token a distance further on. -/
def PlacedToken.shift (distance : ℕ) (placed : PlacedToken) : PlacedToken :=
  ⟨placed.token, placed.position + distance⟩

/-- A token is the same further on. -/
@[simp] theorem PlacedToken.map_token_shift (distance : ℕ) (placed : List PlacedToken) :
    (placed.map (shift distance)).map PlacedToken.token = placed.map PlacedToken.token := by
  rw [List.map_map]
  rfl

/-- The same error a distance further on. -/
def LexicalError.shift (distance : ℕ) : LexicalError → LexicalError
  | unexpectedCharacter found position => unexpectedCharacter found (position + distance)
  | numberOutOfRange literal position => numberOutOfRange literal (position + distance)

/-- The same tokens and the same end a distance further on. -/
def TokenStream.shift (distance : ℕ) (stream : TokenStream) : TokenStream :=
  ⟨stream.tokens.map (PlacedToken.shift distance), stream.size + distance⟩

/-- The same piece a distance further on. -/
def Piece.shift (distance : ℕ) (piece : Piece) : Piece :=
  { piece with placed := piece.placed.shift distance }

/-- A place in a text is a boundary of its tokens: every token of the text starts there or further
on, or ends there or before. -/
def IsBoundary (front back : String) : Prop :=
  ∃ pieces, Splits 0 (front ++ back).toList pieces none ∧ ∀ piece ∈ pieces,
    front.utf8ByteSize ≤ piece.placed.position ∨
      piece.placed.position + Text.byteLength piece.word ≤ front.utf8ByteSize

/-- Of two texts that are equal together the one with fewer bytes comes first in the other. -/
theorem Text.exists_append_of_byteLength_le {front back cs ds : List Char}
    (h : front ++ back = cs ++ ds) (hle : byteLength front ≤ byteLength cs) :
    ∃ middle, cs = front ++ middle ∧ back = middle ++ ds := by
  rcases List.append_eq_append_iff.1 h with hfront | ⟨middle, rfl, rfl⟩
  · exact hfront
  · cases middle with
    | nil => exact ⟨[], by simp, by simp⟩
    | cons c middle =>
      have hpos := c.utf8Size_pos
      rw [byteLength_append, byteLength] at hle
      omega

/-- Blank characters have no part in the tokens after them. -/
theorem Cursor.tokens_gap {gap : List Char} (hgap : ∀ c ∈ gap, Text.isBlank c = true)
    (rest : List Char) (position : ℕ) :
    tokens ⟨gap ++ rest, position⟩ = tokens ⟨rest, position + Text.byteLength gap⟩ := by
  induction gap generalizing position with
  | nil => rfl
  | cons c gap ih =>
    obtain ⟨hfirst, hothers⟩ := List.forall_mem_cons.1 hgap
    rw [List.cons_append, tokens_blank_cons hfirst, ih hothers, Text.byteLength, Nat.add_assoc]

namespace Splits

variable {position : ℕ} {front gap back : List Char} {pieces : List Piece}
  {stop : Option LexicalError}

/-- A lexeme that is scanned at the start of a text and is a token is its first piece. -/
theorem of_scan? {cs rest : List Char} {lexeme : Lexeme} {token : Token}
    (hscan : Lexeme.scan? cs = some (lexeme, rest)) (htoken : lexeme.token? = some token)
    (hrest : Splits (position + Text.byteLength lexeme.text) rest pieces stop) :
    Splits position cs (⟨[], lexeme.text, ⟨token, position⟩⟩ :: pieces) stop := by
  have hlongest := Lexeme.isLongest_of_scan? hscan
  have hwrites := Lexical.writes_iff.2 ⟨lexeme, Lexeme.isComplete_of_scan? hscan, rfl, htoken⟩
  have hgap : ∀ c ∈ ([] : List Char), Text.isBlank c = true := by simp
  rw [← Lexeme.text_append_of_scan? hscan] at hlongest ⊢
  exact .token hgap hlongest hwrites hrest

/-- Where blank characters and another text come after a text, its tokens come first and those of
the other text from where that starts, unless there is an error in the first one. -/
theorem tokens_append_gap (h : Splits position front pieces stop) (hne : gap ≠ [])
    (hgap : ∀ c ∈ gap, Text.isBlank c = true) (back : List Char) :
    Cursor.tokens ⟨front ++ (gap ++ back), position⟩ = match stop with
      | none => (Cursor.tokens ⟨back, position + Text.byteLength (front ++ gap)⟩).map
          (pieces.map Piece.placed ++ ·)
      | some error => .error error := by
  induction h with
  | @finish position blank hblank =>
    rw [Cursor.tokens_gap hblank, Cursor.tokens_gap hgap, Text.byteLength_append, Nat.add_assoc]
    cases Cursor.tokens _ <;> rfl
  | @token position blank word rest token pieces stop hblank hlongest hwrites _ ih =>
    have hfollowed := hlongest.append_gap hne hgap back
    have hsize : position + Text.byteLength (blank ++ word) + Text.byteLength (rest ++ gap) =
        position + Text.byteLength (blank ++ (word ++ rest) ++ gap) := by
      simp only [Text.byteLength_append, Nat.add_assoc]
    rw [List.append_assoc] at hfollowed
    rw [List.append_assoc, List.append_assoc, Cursor.tokens_eq,
      Cursor.next_of_isLongest hblank hfollowed hwrites]
    dsimp only
    rw [ih]
    cases stop with
    | some error => rfl
    | none =>
      dsimp only
      rw [hsize]
      exact Spells.map_append_map_append _ [_] _
  | @unexpectedCharacter position blank rest found hblank hfound hnone =>
    have hnothing : ∀ word ∈ Lexical.token, ¬ word <+: found :: (rest ++ (gap ++ back)) :=
      fun word hword hstarts => hnone word hword
        (Lexical.IsUnbroken.token.isPrefix hword hne hgap hstarts)
    rw [List.append_assoc, List.cons_append, Cursor.tokens_eq,
      Cursor.next_of_unexpectedCharacter hblank hfound hnothing]
  | @numberOutOfRange position blank rest numeral hblank hcomplete hlongest hrange =>
    have hfollowed := hlongest.append_gap hne hgap back
    rw [List.append_assoc] at hfollowed
    rw [List.append_assoc, List.append_assoc, Cursor.tokens_eq,
      Cursor.next_of_numberOutOfRange hblank hcomplete hfollowed hrange]

/-- A text that starts a distance further on is split in the same way. -/
theorem shift (h : Splits position front pieces stop) (distance : ℕ) :
    Splits (position + distance) front (pieces.map (Piece.shift distance))
      (stop.map (LexicalError.shift distance)) := by
  induction h with
  | finish hgap => exact .finish hgap
  | token hgap hlongest hwrites _ ih =>
    rw [Nat.add_right_comm] at ih
    rw [List.map_cons, Piece.shift, PlacedToken.shift, Nat.add_right_comm]
    exact .token hgap hlongest hwrites ih
  | unexpectedCharacter hgap hfound hnone =>
    rw [Option.map_some, LexicalError.shift, Nat.add_right_comm]
    exact .unexpectedCharacter hgap hfound hnone
  | numberOutOfRange hgap hcomplete hlongest hrange =>
    rw [Option.map_some, LexicalError.shift, Nat.add_right_comm]
    exact .numberOutOfRange hgap hcomplete hlongest hrange

/-- A text that is split up to its end is split at a boundary of its tokens into two texts, with the
same tokens. -/
theorem exists_splits_append {cs : List Char} (h : Splits position cs pieces stop)
    (hstop : stop = none) (hcs : cs = front ++ back)
    (hboundary : ∀ piece ∈ pieces,
      position + Text.byteLength front ≤ piece.placed.position ∨
        piece.placed.position + Text.byteLength piece.word ≤ position + Text.byteLength front) :
    ∃ before after, Splits position front before none ∧
      Splits (position + Text.byteLength front) back after none ∧
      (before ++ after).map Piece.placed = pieces.map Piece.placed := by
  induction h generalizing front with
  | finish hgap =>
    obtain rfl := hcs
    obtain ⟨hfront, hback⟩ := List.forall_mem_append.1 hgap
    exact ⟨[], [], .finish hfront, .finish hback, rfl⟩
  | @token position gap word rest token pieces stop hgap hlongest hwrites hrest ih =>
    obtain ⟨hfirst, hothers⟩ := List.forall_mem_cons.1 hboundary
    subst hstop
    rcases hfirst with hbehind | hbefore
    · -- The boundary is in the gap: all tokens come after it.
      have hsize : Text.byteLength front ≤ Text.byteLength gap := by simpa using hbehind
      obtain ⟨gap', rfl, rfl⟩ := Text.exists_append_of_byteLength_le hcs.symm hsize
      obtain ⟨hfront, hgap'⟩ := List.forall_mem_append.1 hgap
      have hplace : position + Text.byteLength (front ++ gap' ++ word) =
          position + Text.byteLength front + Text.byteLength (gap' ++ word) := by
        simp only [Text.byteLength_append, Nat.add_assoc]
      rw [hplace] at hrest
      refine ⟨[], _, .finish hfront, .token hgap' hlongest hwrites hrest, ?_⟩
      rw [Text.byteLength_append, ← Nat.add_assoc]
      rfl
    · -- The boundary is after the word, which is the longest token in front of it too.
      rw [← List.append_assoc] at hcs
      have hsize : Text.byteLength (gap ++ word) ≤ Text.byteLength front := by
        rw [Text.byteLength_append]
        dsimp only at hbefore
        omega
      obtain ⟨front', rfl, rfl⟩ := Text.exists_append_of_byteLength_le hcs hsize
      have hplace : position + Text.byteLength (gap ++ word ++ front') =
          position + Text.byteLength (gap ++ word) + Text.byteLength front' := by
        rw [Text.byteLength_append (gap ++ word), Nat.add_assoc]
      rw [hplace] at hothers ⊢
      obtain ⟨before, after, hfront, hback, hplaced⟩ := ih rfl rfl hothers
      rw [← List.append_assoc] at hlongest
      have hcut := hlongest.of_append (List.prefix_append word front')
      rw [List.append_assoc]
      exact ⟨_, after, .token hgap hcut hwrites hfront, hback, congrArg (_ :: ·) hplaced⟩
  | unexpectedCharacter => cases hstop
  | numberOutOfRange => cases hstop

end Splits

/-- The tokens of a text that starts a distance further on stand the distance further on, and so
does the error. -/
theorem Cursor.tokens_add (cs : List Char) (position distance : ℕ) :
    tokens ⟨cs, position + distance⟩ = match tokens ⟨cs, position⟩ with
      | .ok placed => .ok (placed.map (PlacedToken.shift distance))
      | .error error => .error (error.shift distance) := by
  obtain ⟨pieces, stop, h⟩ := Splits.exists_splits position cs
  have hread := h.tokens_eq
  have hshifted := (h.shift distance).tokens_eq
  cases stop with
  | some error =>
    rw [hread, hshifted]
    rfl
  | none =>
    have hplaced : (pieces.map (Piece.shift distance)).map Piece.placed =
        (pieces.map Piece.placed).map (PlacedToken.shift distance) := by
      rw [List.map_map, List.map_map]
      rfl
    rw [hread, hshifted]
    exact congrArg Except.ok hplaced

/-- A text with the same tokens, wherever they stand, is parsed as the same formula. -/
theorem Formula.parse_of_same_tokens {text other : String} {stream others : TokenStream}
    {formula : Formula} (h : parse text = .ok formula) (htokens : tokenize text = .ok stream)
    (hothers : tokenize other = .ok others)
    (hsame : others.tokens.map PlacedToken.token = stream.tokens.map PlacedToken.token) :
    parse other = .ok formula := by
  obtain ⟨derivation, hderived, rfl⟩ := derives_of_parse htokens h
  have hlevels := levels_le_of_parse htokens derivation hderived h
  exact (parse_of_derivation hothers derivation (hderived.trans hsame.symm)).1 hlevels

/-- A text is tokenized as it is split. -/
theorem Splits.tokenize_eq {text : String} {pieces : List Piece} {stop : Option LexicalError}
    (h : Splits 0 text.toList pieces stop) :
    tokenize text = match stop with
      | none => .ok ⟨pieces.map Piece.placed, text.utf8ByteSize⟩
      | some error => .error error := by
  rw [tokenize, Cursor.start, h.tokens_eq]
  cases stop <;> rfl

section

variable {gap : String} (hne : gap ≠ "") (hgap : ∀ c ∈ gap.toList, Text.isBlank c = true)

include hgap in
/-- Blank characters before a text leave its formula what it is. -/
theorem parse_gap_append {text : String} {formula : Formula}
    (h : Formula.parse text = .ok formula) : Formula.parse (gap ++ text) = .ok formula := by
  obtain ⟨stream, htokens⟩ := Formula.exists_tokenize_of_parse h
  have hgapped : tokenize (gap ++ text) =
      .ok ⟨stream.tokens.map (PlacedToken.shift (Text.byteLength gap.toList)),
        (gap ++ text).utf8ByteSize⟩ := by
    have hplaced := tokens_start_of_tokenize htokens
    rw [Cursor.start] at hplaced
    rw [tokenize, Cursor.start, String.toList_append, Cursor.tokens_gap hgap, Cursor.tokens_add,
      hplaced]
    rfl
  exact Formula.parse_of_same_tokens h htokens hgapped (PlacedToken.map_token_shift _ _)

include hne hgap

/-- A text, blank characters and another text are tokenized as the first text is split, and then as
the other one is read from where it starts. -/
theorem Splits.tokenize_append {front : String} {pieces : List Piece} {stop : Option LexicalError}
    (h : Splits 0 front.toList pieces stop) (back : String) :
    tokenize (front ++ gap ++ back) = match stop with
      | none => (Cursor.tokens ⟨back.toList, (front ++ gap).utf8ByteSize⟩).map fun placed =>
          ⟨pieces.map Piece.placed ++ placed, (front ++ gap ++ back).utf8ByteSize⟩
      | some error => .error error := by
  have hnonempty : gap.toList ≠ [] := by simpa using hne
  have hread := h.tokens_append_gap hnonempty hgap back.toList
  rw [← List.append_assoc, ← String.toList_append, ← String.toList_append] at hread
  rw [tokenize, Cursor.start, hread]
  cases stop with
  | some error => rfl
  | none =>
    dsimp only
    rw [Nat.zero_add, Text.byteLength_toList]
    cases Cursor.tokens _ <;> rfl

/-- Blank characters after a text that is tokenized are followed by the tokens of what comes after
them, or by the error in it. -/
theorem tokenize_append_of_ok {front : String} {stream : TokenStream}
    (h : tokenize front = .ok stream) (back : String) :
    tokenize (front ++ gap ++ back) = match tokenize back with
      | .ok others =>
        .ok ⟨stream.tokens ++ (others.shift (front ++ gap).utf8ByteSize).tokens,
          (others.shift (front ++ gap).utf8ByteSize).size⟩
      | .error error => .error (error.shift (front ++ gap).utf8ByteSize) := by
  obtain ⟨pieces, stop, hsplits⟩ := Splits.exists_splits 0 front.toList
  have hread := hsplits.tokenize_append hne hgap back
  rw [hsplits.tokenize_eq] at h
  cases stop with
  | some error => cases h
  | none =>
    cases h
    have hadd := Cursor.tokens_add back.toList 0 (front ++ gap).utf8ByteSize
    rw [Nat.zero_add] at hadd
    rw [hread, tokenize, Cursor.start]
    dsimp only
    rw [hadd, String.utf8ByteSize_append, Nat.add_comm]
    cases Cursor.tokens ⟨back.toList, 0⟩ <;> rfl

/-- An error in a text is the same when blank characters and another text come after it. -/
theorem tokenize_append_of_error {front : String} {error : LexicalError}
    (h : tokenize front = .error error) (back : String) :
    tokenize (front ++ gap ++ back) = .error error := by
  obtain ⟨pieces, stop, hsplits⟩ := Splits.exists_splits 0 front.toList
  have hread := hsplits.tokenize_append hne hgap back
  rw [hsplits.tokenize_eq] at h
  cases stop with
  | none => cases h
  | some found =>
    cases h
    exact hread

/-- Blank characters at a boundary of the tokens of a text leave the formula what it is. -/
theorem parse_append_of_isBoundary {front back : String} {formula : Formula}
    (h : Formula.parse (front ++ back) = .ok formula) (hboundary : IsBoundary front back) :
    Formula.parse (front ++ gap ++ back) = .ok formula := by
  obtain ⟨pieces, hsplits, hplaces⟩ := hboundary
  have hsize : 0 + Text.byteLength front.toList = front.utf8ByteSize := by
    rw [Nat.zero_add, Text.byteLength_toList]
  rw [← hsize] at hplaces
  obtain ⟨before, after, hfront, hback, hplaced⟩ :=
    hsplits.exists_splits_append rfl String.toList_append hplaces
  have hread := hfront.tokenize_append hne hgap back
  rw [hsize] at hback
  have hshifted : Cursor.tokens ⟨back.toList, (front ++ gap).utf8ByteSize⟩ =
      .ok ((after.map Piece.placed).map (PlacedToken.shift gap.utf8ByteSize)) := by
    rw [String.utf8ByteSize_append, Cursor.tokens_add, hback.tokens_eq]
  rw [hshifted] at hread
  refine Formula.parse_of_same_tokens h hsplits.tokenize_eq hread ?_
  rw [← hplaced, List.map_append, List.map_append, List.map_append, PlacedToken.map_token_shift]

/-- Blank characters after a text leave its formula what it is. -/
theorem parse_append_gap {text : String} {formula : Formula}
    (h : Formula.parse text = .ok formula) : Formula.parse (text ++ gap) = .ok formula := by
  obtain ⟨stream, htokens⟩ := Formula.exists_tokenize_of_parse h
  have hempty : tokenize "" = .ok ⟨[], 0⟩ := by
    rw [tokenize, Cursor.start, String.toList_empty, Cursor.tokens_nil]
    rfl
  have hgapped := tokenize_append_of_ok hne hgap htokens ""
  rw [hempty, String.append_empty] at hgapped
  refine Formula.parse_of_same_tokens h htokens hgapped ?_
  simp [TokenStream.shift]

end

/-- Blank characters between two texts separate their tokens. If the first text is tokenized, then
both with the blank characters between them give its tokens, and after them the tokens and the end
of the second one, or its error, as far on as the first text and the blank characters are long. If
there is an error in the first text, it is the error of both. So blank characters at a boundary of
the tokens of a text that is parsed, or at either end of it, leave the formula what it is. -/
theorem tokenize_append_blank {gap : String} (hne : gap ≠ "")
    (hgap : ∀ c ∈ gap.toList, Text.isBlank c = true) :
    (∀ front back stream, tokenize front = .ok stream →
      tokenize (front ++ gap ++ back) = match tokenize back with
        | .ok others =>
          .ok ⟨stream.tokens ++ (others.shift (front ++ gap).utf8ByteSize).tokens,
            (others.shift (front ++ gap).utf8ByteSize).size⟩
        | .error error => .error (error.shift (front ++ gap).utf8ByteSize)) ∧
    (∀ front back error, tokenize front = .error error →
      tokenize (front ++ gap ++ back) = .error error) ∧
    (∀ front back formula, Formula.parse (front ++ back) = .ok formula → IsBoundary front back →
      Formula.parse (front ++ gap ++ back) = .ok formula) ∧
    ∀ text formula, Formula.parse text = .ok formula →
      Formula.parse (gap ++ text) = .ok formula ∧ Formula.parse (text ++ gap) = .ok formula :=
  ⟨fun _ back _ h => tokenize_append_of_ok hne hgap h back,
    fun _ back _ h => tokenize_append_of_error hne hgap h back,
    fun _ _ _ h hboundary => parse_append_of_isBoundary hne hgap h hboundary,
    fun _ _ h => ⟨parse_gap_append hgap h, parse_append_gap hne hgap h⟩⟩

/-- A name that a parenthesis opens after is called with a wide blank character between them, and
what comes after the four bytes of both stands so much further on. -/
theorem tokenize_append_blank_call :
    tokenize ("f" ++ "\u3000" ++ "(x)") = .ok ⟨[⟨.identifier "f", 0⟩, ⟨.mark .opening, 4⟩,
        ⟨.identifier "x", 5⟩, ⟨.mark .closing, 6⟩], 7⟩ ∧
      Formula.parse ("f" ++ "\u3000" ++ "(x)") = .ok (.call "f" [.variable "x"]) := by
  have hname : Lexeme.scan? ['f'] = some (.identifier ['f'], []) := rfl
  have hcalled : Lexeme.scan? ['f', '(', 'x', ')'] =
    some (.identifier ['f'], ['(', 'x', ')']) := rfl
  have hopening : Lexeme.scan? ['(', 'x', ')'] = some (.mark .opening, ['x', ')']) := rfl
  have hargument : Lexeme.scan? ['x', ')'] = some (.identifier ['x'], [')']) := rfl
  have hclosing : Lexeme.scan? [')'] = some (.mark .closing, []) := rfl
  have hparentheses (position : ℕ) : Splits position ['(', 'x', ')'] _ none :=
    .of_scan? hopening rfl (.of_scan? hargument rfl (.of_scan? hclosing rfl (.finish (by simp))))
  have hfront : Splits 0 "f".toList _ none := .of_scan? hname rfl (.finish (by simp))
  have hback : Splits 0 "(x)".toList _ none := hparentheses 0
  have hwhole : Splits 0 ("f" ++ "(x)").toList _ none := .of_scan? hcalled rfl (hparentheses 1)
  have hfunction : isIdentifier "f".toList = true := by decide
  have hvariable : isIdentifier "x".toList = true := by decide
  have hparse : Formula.parse ("f" ++ "(x)") = .ok (.call "f" [.variable "x"]) :=
    Formula.parse_of_spells
      (.term (.operand (.call "f" (.last (.term (.operand (.identifier "x")))))))
      (Spells.call hfunction (Spells.identifier hvariable)) (by decide)
  have hne : "\u3000" ≠ "" := by decide
  have hgap : ∀ c ∈ "\u3000".toList, Text.isBlank c = true := List.all_eq_true.1 (by decide)
  obtain ⟨htokens, _, hboundary, _⟩ := tokenize_append_blank hne hgap
  refine ⟨?_, hboundary _ _ _ hparse ⟨_, hwhole, by decide⟩⟩
  rw [htokens _ _ _ hfront.tokenize_eq, hback.tokenize_eq]
  rfl

end Calculator
