import Calculator.Token.Stream

/-!
# Lexemes in front of other text

A lexeme is found again where it is written, whatever stands after it, provided that this
does not go on with a letter, a digit, an underscore or a point. A mark is found before any
text at all.
-/

namespace Calculator

/-- The text after a name or a number does not go on with it. -/
def Cuts (rest : List Char) : Prop :=
  ∀ c ∈ rest.head?, continuesIdentifier c = false ∧ c ≠ '.'

/-- The end of a text cuts. -/
theorem cuts_nil : Cuts [] := by
  simp [Cuts]

/-- A text that starts with another character cuts. -/
theorem cuts_cons {c : Char} (hname : continuesIdentifier c = false) (hpoint : c ≠ '.')
    (rest : List Char) : Cuts (c :: rest) := by
  simp [Cuts, hname, hpoint]

/-- A digit may stand in an identifier. -/
theorem continuesIdentifier_of_isDigit {c : Char} (h : c.isDigit = true) :
    continuesIdentifier c = true := by
  simp [continuesIdentifier, Char.isAlphanum, h]

/-- The code point of a digit. -/
theorem toNat_of_isDigit {c : Char} (h : c.isDigit = true) : 48 ≤ c.toNat ∧ c.toNat ≤ 57 := by
  simp only [Char.isDigit, Bool.and_eq_true, decide_eq_true_eq, ge_iff_le,
    UInt32.le_iff_toNat_le] at h
  exact h

/-- The code point of a letter or an underscore. -/
theorem toNat_of_startsIdentifier {c : Char} (h : startsIdentifier c = true) :
    65 ≤ c.toNat ∧ c.toNat ≤ 122 := by
  rcases Bool.or_eq_true_iff.1 h with halpha | hunderscore
  · rcases Bool.or_eq_true_iff.1 halpha with hupper | hlower
    · obtain ⟨hlow, hhigh⟩ := of_decide_eq_true hupper
      exact ⟨hlow, Nat.le_trans hhigh (by decide)⟩
    · obtain ⟨hlow, hhigh⟩ := Bool.and_eq_true_iff.1 hlower
      exact ⟨Nat.le_trans (by decide) (of_decide_eq_true hlow), of_decide_eq_true hhigh⟩
  · rw [beq_iff_eq.1 hunderscore]
    decide

/-- No identifier starts with a digit. -/
theorem isDigit_eq_false_of_startsIdentifier {c : Char} (h : startsIdentifier c = true) :
    c.isDigit = false := by
  rw [Bool.eq_false_iff]
  intro hdigit
  have hletter := toNat_of_startsIdentifier h
  have hdigit := toNat_of_isDigit hdigit
  omega

/-- The visible ASCII characters are not blank. -/
theorem isBlank_eq_false {c : Char} (hlow : 0x20 < c.toNat) (hhigh : c.toNat < 0x7F) :
    Text.isBlank c = false := by
  rw [Bool.eq_false_iff]
  intro hblank
  obtain ⟨range, hrange, hle⟩ := Text.Ranges.contains_iff.1 hblank
  simp only [Text.whiteSpace, List.mem_cons, List.not_mem_nil, or_false] at hrange
  rcases hrange with rfl | rfl | rfl | rfl | rfl | rfl | rfl | rfl | rfl | rfl <;> omega

/-- The symbol of a mark is not blank. -/
theorem Mark.isBlank_symbol (written : Mark) : Text.isBlank written.symbol = false := by
  apply isBlank_eq_false <;> rcases written with op | _ | _ | _ <;> try decide
  all_goals cases op <;> decide

/-- A text that cuts does not start with a digit. -/
theorem Cuts.isDigit_eq_false {rest : List Char} (h : Cuts rest) :
    ∀ c ∈ rest.head?, c.isDigit = false := by
  intro c hc
  rw [Bool.eq_false_iff]
  intro hdigit
  simpa [(h c hc).1] using continuesIdentifier_of_isDigit hdigit

/-- The characters of a kind at the start of a text are taken up to the first other one. -/
theorem takeWhile_append_of_head? {p : Char → Bool} {front back : List Char}
    (hfront : ∀ c ∈ front, p c = true) (hback : ∀ c ∈ back.head?, p c = false) :
    (front ++ back).takeWhile p = front ∧ (front ++ back).dropWhile p = back := by
  rw [List.takeWhile_append_of_pos hfront, List.dropWhile_append_of_pos hfront]
  cases back with
  | nil => simp
  | cons c back => simp [hback c rfl]

/-- Where a text starts with a character of another kind, none is taken. -/
theorem takeWhile_of_head? {p : Char → Bool} {back : List Char}
    (hback : ∀ c ∈ back.head?, p c = false) :
    back.takeWhile p = [] ∧ back.dropWhile p = back := by
  have hnone : ∀ c ∈ ([] : List Char), p c = true := by simp
  simpa using takeWhile_append_of_head? hnone hback

/-- An identifier is a letter or an underscore, and then letters, digits and underscores. -/
def isIdentifier : List Char → Bool
  | [] => false
  | c :: cs => startsIdentifier c && cs.all continuesIdentifier

/-- An identifier starts with a character that is not blank. -/
theorem exists_cons_of_isIdentifier {name : List Char} (h : isIdentifier name = true) :
    ∃ c cs, name = c :: cs ∧ Text.isBlank c = false := by
  cases name with
  | nil => cases h
  | cons c cs =>
    have hletter := toNat_of_startsIdentifier (Bool.and_eq_true_iff.1 h).1
    exact ⟨c, cs, rfl, isBlank_eq_false (by omega) (by omega)⟩

/-- What is scanned as an identifier is one. -/
theorem isIdentifier_of_scanIdentifier? {cs name rest : List Char}
    (h : scanIdentifier? cs = some (name, rest)) : isIdentifier name = true := by
  unfold scanIdentifier? at h
  split at h
  · cases h
  · split at h
    · rename_i hstart
      cases h
      simp [isIdentifier, hstart]
    · cases h

/-- An exponent is complete: it opens with an `e` and has at least one digit. -/
structure Exponent.IsComplete (exponent : Exponent) : Prop where
  letter : exponent.letter = 'e' ∨ exponent.letter = 'E'
  nonempty : exponent.digits ≠ []
  digits : ∀ c ∈ exponent.digits, c.isDigit = true

instance (exponent : Exponent) : Decidable exponent.IsComplete :=
  decidable_of_iff (((exponent.letter == 'e' || exponent.letter == 'E') &&
      (!exponent.digits.isEmpty && exponent.digits.all Char.isDigit)) = true) <| by
    simp only [Bool.and_eq_true, Bool.or_eq_true, beq_iff_eq, Bool.not_eq_true',
      List.isEmpty_eq_false_iff, List.all_eq_true]
    exact ⟨fun ⟨letter, nonempty, digits⟩ => ⟨letter, nonempty, digits⟩,
      fun h => ⟨h.letter, h.nonempty, h.digits⟩⟩

/-- A numeral is complete: it has digits around its point, and its exponent is complete. -/
structure Numeral.IsComplete (numeral : Numeral) : Prop where
  whole : ∀ c ∈ numeral.whole, c.isDigit = true
  fraction : ∀ c ∈ numeral.fraction.getD [], c.isDigit = true
  nonempty : numeral.whole ++ numeral.fraction.getD [] ≠ []
  exponent : ∀ exponent ∈ numeral.exponent, exponent.IsComplete

instance (numeral : Numeral) : Decidable numeral.IsComplete :=
  decidable_of_iff ((numeral.whole.all Char.isDigit &&
      ((numeral.fraction.getD []).all Char.isDigit &&
        (!(numeral.whole ++ numeral.fraction.getD []).isEmpty &&
          numeral.exponent.all fun exponent => decide exponent.IsComplete))) = true) <| by
    simp only [Bool.and_eq_true, List.all_eq_true, Bool.not_eq_true', List.isEmpty_eq_false_iff,
      Option.all_eq_true, decide_eq_true_eq]
    exact ⟨fun ⟨whole, fraction, nonempty, exponent⟩ => ⟨whole, fraction, nonempty, exponent⟩,
      fun h => ⟨h.whole, h.fraction, h.nonempty, h.exponent⟩⟩

/-- A complete numeral starts with a character that is not blank. -/
theorem Numeral.IsComplete.exists_cons_text {numeral : Numeral} (h : numeral.IsComplete) :
    ∃ c cs, numeral.text = c :: cs ∧ Text.isBlank c = false := by
  obtain ⟨whole, fraction, exponent⟩ := numeral
  cases whole with
  | cons c cs =>
    have hdigit := toNat_of_isDigit (h.whole c (by simp))
    exact ⟨c, _, rfl, isBlank_eq_false (by omega) (by omega)⟩
  | nil =>
    cases fraction with
    | none => exact absurd rfl h.nonempty
    | some digits => exact ⟨'.', _, rfl, by decide⟩

/-- No digit writes a sign. -/
theorem Sign.ofSymbol?_of_isDigit {c : Char} (h : c.isDigit = true) : ofSymbol? c = none := by
  cases hsign : ofSymbol? c with
  | none => rfl
  | some sign =>
    rw [← ofSymbol?_eq_some_iff.1 hsign] at h
    cases sign <;> simp [symbol] at h

namespace Exponent

/-- A written sign is found before digits, and so is none. -/
theorem scanSign_append_digits (sign : Option Sign) {digits : List Char}
    (hnonempty : digits ≠ []) (hdigits : ∀ c ∈ digits, c.isDigit = true) (rest : List Char) :
    scanSign ((sign.map Sign.symbol).toList ++ (digits ++ rest)) = (sign, digits ++ rest) := by
  cases sign with
  | some sign => cases sign <;> rfl
  | none =>
    obtain ⟨c, cs, rfl⟩ := List.exists_cons_of_ne_nil hnonempty
    have hnone := Sign.ofSymbol?_of_isDigit (hdigits c (by simp))
    simp [scanSign, hnone]

/-- A complete exponent is found where it is written. -/
theorem scan_text_append {exponent : Exponent} (h : exponent.IsComplete) {rest : List Char}
    (hrest : Cuts rest) : scan (exponent.text ++ rest) = (some exponent, rest) := by
  obtain ⟨letter, sign, digits⟩ := exponent
  have hsign := scanSign_append_digits sign h.nonempty h.digits rest
  obtain ⟨htake, hdrop⟩ := takeWhile_append_of_head? h.digits hrest.isDigit_eq_false
  have hletter : letter = 'e' ∨ letter = 'E' := h.letter
  have hnonempty : digits.isEmpty = false := by simpa using h.nonempty
  simp only [text, scan, List.cons_append, List.append_assoc, if_pos hletter, hsign, htake,
    hdrop, hnonempty]
  simp

/-- No exponent starts with a digit or a point. -/
theorem head?_text_append {exponent : Exponent} (h : exponent.IsComplete) (rest : List Char) :
    ∀ c ∈ (exponent.text ++ rest).head?, c.isDigit = false ∧ c ≠ '.' := by
  intro c hc
  obtain rfl : exponent.letter = c := Option.some.inj hc
  obtain hletter | hletter := h.letter <;> simp [hletter]

/-- No exponent is found where a text cuts. -/
theorem scan_of_cuts {rest : List Char} (h : Cuts rest) : scan rest = (none, rest) := by
  cases rest with
  | nil => rfl
  | cons c rest =>
    have hname := (h c rfl).1
    have hletter : ¬ (c = 'e' ∨ c = 'E') := by
      rintro (rfl | rfl) <;> simp [continuesIdentifier] at hname
    simp only [scan, if_neg hletter]

end Exponent

namespace Numeral

/-- What is written after the digits of a numeral does not go on with them. -/
theorem head?_exponent_append {exponent : Option Exponent} {rest : List Char}
    (hexponent : ∀ written ∈ exponent, written.IsComplete) (hrest : Cuts rest) :
    ∀ c ∈ ((exponent.map Exponent.text).getD [] ++ rest).head?, c.isDigit = false ∧ c ≠ '.' := by
  cases exponent with
  | none => exact fun c hc => ⟨hrest.isDigit_eq_false c hc, (hrest c hc).2⟩
  | some written => exact Exponent.head?_text_append (hexponent written rfl) rest

/-- A complete numeral is found where it is written. -/
theorem scan?_text_append {numeral : Numeral} (h : numeral.IsComplete) {rest : List Char}
    (hrest : Cuts rest) : scan? (numeral.text ++ rest) = some (numeral, rest) := by
  obtain ⟨whole, fraction, exponent⟩ := numeral
  have hend := head?_exponent_append h.exponent hrest
  have hexponent : Exponent.scan ((exponent.map Exponent.text).getD [] ++ rest) =
      (exponent, rest) := by
    cases exponent with
    | none => exact Exponent.scan_of_cuts hrest
    | some written => exact Exponent.scan_text_append (h.exponent written rfl) hrest
  have hdigits : scanDigits (text ⟨whole, fraction, exponent⟩ ++ rest) =
      ((whole, fraction), (exponent.map Exponent.text).getD [] ++ rest) := by
    cases fraction with
    | none =>
      obtain ⟨htake, hdrop⟩ := takeWhile_append_of_head? h.whole fun c hc => (hend c hc).1
      have hsplit : text ⟨whole, none, exponent⟩ ++ rest =
          whole ++ ((exponent.map Exponent.text).getD [] ++ rest) := by simp [text]
      rw [hsplit]
      unfold scanDigits
      simp only [htake, hdrop]
      split
      · rename_i after hafter
        exact absurd rfl (hend '.' (by simp [hafter])).2
      · rfl
    | some digits =>
      obtain ⟨htake, hdrop⟩ := takeWhile_append_of_head? h.fraction fun c hc => (hend c hc).1
      have hpoint : ∀ c ∈ ('.' :: (digits ++
          ((exponent.map Exponent.text).getD [] ++ rest))).head?, c.isDigit = false := by simp
      obtain ⟨htake', hdrop'⟩ := takeWhile_append_of_head? h.whole hpoint
      have hsplit : text ⟨whole, some digits, exponent⟩ ++ rest =
          whole ++ '.' :: (digits ++ ((exponent.map Exponent.text).getD [] ++ rest)) := by
        simp [text]
      have hsome : (whole.isEmpty && digits.isEmpty) = false := by
        simpa using h.nonempty
      simp only [Option.getD_some] at htake hdrop
      rw [hsplit]
      unfold scanDigits
      simp only [htake', hdrop', htake, hdrop, hsome, Bool.false_eq_true, if_false]
  unfold scan?
  rw [hdigits]
  split
  · rename_i hnone
    obtain ⟨⟨rfl, rfl⟩, _⟩ := Prod.mk.inj hnone
    exact absurd rfl h.nonempty
  · rename_i hsome
    obtain ⟨hpair, rfl⟩ := Prod.mk.inj hsome
    obtain ⟨rfl, rfl⟩ := Prod.mk.inj hpair
    rw [hexponent]

/-- No numeral starts with a character that is neither a digit nor a point. -/
theorem scan?_cons_eq_none {c : Char} (hdigit : c.isDigit = false) (hpoint : c ≠ '.')
    (rest : List Char) : scan? (c :: rest) = none := by
  have hdigits : scanDigits (c :: rest) = (([], none), c :: rest) := by
    unfold scanDigits
    rw [List.dropWhile_cons_of_neg (by simp [hdigit]),
      List.takeWhile_cons_of_neg (by simp [hdigit])]
    split
    · rename_i hafter
      exact absurd (List.cons.inj hafter).1 hpoint
    · rfl
  unfold scan?
  rw [hdigits]

end Numeral

namespace Lexeme

/-- A complete numeral in front of a text that cuts is the lexeme there. -/
theorem scan?_numeral_append {numeral : Numeral} (h : numeral.IsComplete) {rest : List Char}
    (hrest : Cuts rest) : scan? (numeral.text ++ rest) = some (.numeral numeral, rest) := by
  unfold scan?
  rw [Numeral.scan?_text_append h hrest]

/-- Where a letter or an underscore stands, the lexeme is an identifier. -/
theorem scan?_cons_of_startsIdentifier {c : Char} (h : startsIdentifier c = true)
    (rest : List Char) : scan? (c :: rest) =
      some (.identifier (c :: rest.takeWhile continuesIdentifier),
        rest.dropWhile continuesIdentifier) := by
  have hpoint : c ≠ '.' := by
    rintro rfl
    simp [startsIdentifier] at h
  unfold scan?
  rw [Numeral.scan?_cons_eq_none (isDigit_eq_false_of_startsIdentifier h) hpoint]
  simp only [scanIdentifier?, if_pos h]

/-- An identifier in front of a text that cuts is the lexeme there. -/
theorem scan?_identifier_append {name : List Char} (h : isIdentifier name = true)
    {rest : List Char} (hrest : Cuts rest) :
    scan? (name ++ rest) = some (.identifier name, rest) := by
  cases name with
  | nil => cases h
  | cons c cs =>
    simp only [isIdentifier, Bool.and_eq_true, List.all_eq_true] at h
    obtain ⟨hstart, hall⟩ := h
    obtain ⟨htake, hdrop⟩ := takeWhile_append_of_head? hall fun c hc => (hrest c hc).1
    rw [List.cons_append, scan?_cons_of_startsIdentifier hstart, htake, hdrop]

/-- A mark is the lexeme in front of any text. -/
theorem scan?_symbol_cons (written : Mark) (rest : List Char) :
    scan? (written.symbol :: rest) = some (.mark written, rest) := by
  have hnumeral : Numeral.scan? (written.symbol :: rest) = none := by
    apply Numeral.scan?_cons_eq_none
    · rcases written with op | _ | _ | _ <;> try rfl
      cases op <;> rfl
    · rcases written with op | _ | _ | _ <;> try decide
      cases op <;> decide
  have hname : scanIdentifier? (written.symbol :: rest) = none := by
    rcases written with op | _ | _ | _ <;> try rfl
    cases op <;> rfl
  simp [scan?, hnumeral, hname, scanMark?, Mark.ofSymbol?_eq_some_iff.2 rfl]

end Lexeme

end Calculator
