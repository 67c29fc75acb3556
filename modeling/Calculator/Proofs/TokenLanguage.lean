import Calculator.Proofs.Lexemes
import Mathlib.Computability.Language

/-!
# The language of tokens

Numbers, identifiers and marks are words of a regular language over the characters. The words
of this language are exactly the texts of complete lexemes, so what is said of it holds of
lexemes, and the other way round.
-/

namespace Calculator

open Computability

namespace Lexical

/-- The words of a single character of one kind. -/
def single (kind : Char → Prop) : Language Char :=
  {word | ∃ c, kind c ∧ word = [c]}

/-- A decimal digit. -/
def digit : Language Char :=
  single fun c => '0' ≤ c ∧ c ≤ '9'

/-- A letter without accents, or an underscore. -/
def letter : Language Char :=
  single fun c => ('A' ≤ c ∧ c ≤ 'Z') ∨ ('a' ≤ c ∧ c ≤ 'z') ∨ c = '_'

/-- One digit or more. -/
def digits : Language Char :=
  digit * digit∗

/-- The letter `e` in either case, a sign if there is one, and digits. -/
def exponent : Language Char :=
  single (· ∈ ['e', 'E']) * (1 + single (· ∈ ['+', '-'])) * digits

/-- Digits with or without a point among or after them, or digits after a point. -/
def significand : Language Char :=
  digits * (1 + single (· = '.') * digit∗) + single (· = '.') * digits

/-- A significand, and an exponent if there is one. -/
def number : Language Char :=
  significand * (1 + exponent)

/-- A letter or an underscore, and then letters, digits and underscores. -/
def identifier : Language Char :=
  letter * (letter + digit)∗

/-- An operator, a parenthesis or a comma. -/
def mark : Language Char :=
  single (· ∈ ['+', '-', '*', '/', '(', ')', ','])

/-- A number, an identifier or a mark. -/
def token : Language Char :=
  number + identifier + mark

/-- The words of characters of one kind. -/
theorem mem_kstar_single {kind : Char → Prop} {word : List Char} :
    word ∈ (single kind)∗ ↔ ∀ c ∈ word, kind c := by
  constructor
  · intro h
    obtain ⟨parts, rfl, hparts⟩ := Language.mem_kstar.1 h
    intro c hc
    obtain ⟨part, hpart, hmem⟩ := List.mem_flatten.1 hc
    obtain ⟨found, hkind, rfl⟩ := hparts part hpart
    rwa [List.mem_singleton.1 hmem]
  · intro h
    refine Language.mem_kstar.2
      ⟨word.map ([·]), by rw [← List.flatMap_def, List.flatMap_singleton'], ?_⟩
    intro part hpart
    obtain ⟨c, hc, rfl⟩ := List.mem_map.1 hpart
    exact ⟨c, h c hc, rfl⟩

/-- A word that starts with a character of one kind. -/
theorem mem_single_mul {kind : Char → Prop} {language : Language Char} {word : List Char} :
    word ∈ single kind * language ↔ ∃ c cs, kind c ∧ cs ∈ language ∧ c :: cs = word := by
  constructor
  · intro h
    obtain ⟨_, ⟨c, hkind, rfl⟩, cs, hcs, rfl⟩ := Language.mem_mul.1 h
    exact ⟨c, cs, hkind, hcs, rfl⟩
  · rintro ⟨c, cs, hkind, hcs, rfl⟩
    exact Language.mem_mul.2 ⟨[c], ⟨c, hkind, rfl⟩, cs, hcs, rfl⟩

/-- A word that may be missing. -/
theorem mem_one_add {language : Language Char} {word : List Char} :
    word ∈ 1 + language ↔ word = [] ∨ word ∈ language := by
  rw [Language.mem_add, Language.mem_one]

/-- Two kinds of characters are one. -/
theorem single_add_single (kind other : Char → Prop) :
    single kind + single other = single fun c => kind c ∨ other c := by
  ext word
  rw [Language.mem_add]
  constructor
  · rintro (⟨c, hkind, rfl⟩ | ⟨c, hkind, rfl⟩)
    · exact ⟨c, .inl hkind, rfl⟩
    · exact ⟨c, .inr hkind, rfl⟩
  · rintro ⟨c, hkind | hkind, rfl⟩
    · exact .inl ⟨c, hkind, rfl⟩
    · exact .inr ⟨c, hkind, rfl⟩

/-- The digits are the characters taken for digits. -/
theorem digit_eq : digit = single fun c => c.isDigit = true := by
  rw [digit]
  congr
  ext c
  simp [Char.isDigit, Char.le_def, UInt32.le_iff_toNat_le]

/-- The letters without accents are those of two ranges. -/
theorem isAlpha_iff {c : Char} :
    c.isAlpha = true ↔ ('A' ≤ c ∧ c ≤ 'Z') ∨ ('a' ≤ c ∧ c ≤ 'z') := by
  constructor
  · intro h
    rcases Bool.or_eq_true_iff.1 h with hupper | hlower
    · exact .inl (of_decide_eq_true hupper)
    · obtain ⟨hlow, hhigh⟩ := Bool.and_eq_true_iff.1 hlower
      exact .inr ⟨of_decide_eq_true hlow, of_decide_eq_true hhigh⟩
  · rintro (hupper | ⟨hlow, hhigh⟩)
    · exact Bool.or_eq_true_iff.2 (.inl (decide_eq_true hupper))
    · exact Bool.or_eq_true_iff.2
        (.inr (Bool.and_eq_true_iff.2 ⟨decide_eq_true hlow, decide_eq_true hhigh⟩))

/-- The letters are the characters that may start an identifier. -/
theorem letter_eq : letter = single fun c => startsIdentifier c = true := by
  rw [letter]
  congr
  ext c
  rw [← or_assoc, ← isAlpha_iff, startsIdentifier, Bool.or_eq_true, beq_iff_eq]

/-- The letters and the digits are the characters that may stand in an identifier. -/
theorem letter_add_digit_eq :
    letter + digit = single fun c => continuesIdentifier c = true := by
  rw [letter_eq, digit_eq, single_add_single]
  congr
  ext c
  simp only [startsIdentifier, continuesIdentifier, Char.isAlphanum, Bool.or_eq_true]
  tauto

/-- One digit or more. -/
theorem mem_digits {word : List Char} :
    word ∈ digits ↔ word ≠ [] ∧ ∀ c ∈ word, c.isDigit = true := by
  rw [digits, digit_eq, mem_single_mul]
  constructor
  · rintro ⟨c, cs, hc, hcs, rfl⟩
    exact ⟨List.cons_ne_nil c cs, List.forall_mem_cons.2 ⟨hc, mem_kstar_single.1 hcs⟩⟩
  · rintro ⟨hnonempty, hdigits⟩
    obtain ⟨c, cs, rfl⟩ := List.exists_cons_of_ne_nil hnonempty
    obtain ⟨hc, hcs⟩ := List.forall_mem_cons.1 hdigits
    exact ⟨c, cs, hc, mem_kstar_single.2 hcs, rfl⟩

/-- The exponents of the language are the complete ones. -/
theorem mem_exponent {word : List Char} :
    word ∈ exponent ↔ ∃ written : Exponent, written.IsComplete ∧ written.text = word := by
  rw [exponent, mul_assoc, mem_single_mul]
  constructor
  · rintro ⟨letter, cs, hletter, hcs, rfl⟩
    obtain ⟨sign, hsign, digits, hdigits, rfl⟩ := Language.mem_mul.1 hcs
    obtain ⟨hnonempty, hdigits⟩ := mem_digits.1 hdigits
    have hletter : letter = 'e' ∨ letter = 'E' := by simpa using hletter
    obtain rfl | ⟨c, hc, rfl⟩ := mem_one_add.1 hsign
    · exact ⟨⟨letter, none, digits⟩, ⟨hletter, hnonempty, hdigits⟩, rfl⟩
    · have hc : c = '+' ∨ c = '-' := by simpa using hc
      obtain rfl | rfl := hc
      · exact ⟨⟨letter, some .plus, digits⟩, ⟨hletter, hnonempty, hdigits⟩, rfl⟩
      · exact ⟨⟨letter, some .minus, digits⟩, ⟨hletter, hnonempty, hdigits⟩, rfl⟩
  · rintro ⟨⟨letter, sign, digits⟩, hcomplete, rfl⟩
    have hdigits := mem_digits.2 ⟨hcomplete.nonempty, hcomplete.digits⟩
    refine ⟨letter, (sign.map Sign.symbol).toList ++ digits, by simpa using hcomplete.letter,
      Language.mem_mul.2 ⟨_, mem_one_add.2 ?_, digits, hdigits, rfl⟩, rfl⟩
    cases sign with
    | none => exact .inl rfl
    | some sign => exact .inr ⟨sign.symbol, by cases sign <;> decide, rfl⟩

/-- The significands of the language are the complete numerals without an exponent. -/
theorem mem_significand {word : List Char} :
    word ∈ significand ↔ ∃ written : Numeral, written.IsComplete ∧ written.exponent = none ∧
      written.whole ++ (written.fraction.map ('.' :: ·)).getD [] = word := by
  rw [significand, Language.mem_add, Language.mem_mul, mem_single_mul]
  constructor
  · rintro (⟨whole, hwhole, point, hpoint, rfl⟩ | ⟨_, fraction, rfl, hfraction, rfl⟩)
    · obtain ⟨hnonempty, hwhole⟩ := mem_digits.1 hwhole
      obtain rfl | hpoint := mem_one_add.1 hpoint
      · exact ⟨⟨whole, none, none⟩, ⟨hwhole, by simp, by simpa using hnonempty, by simp⟩, rfl,
          rfl⟩
      · obtain ⟨_, fraction, rfl, hfraction, rfl⟩ := mem_single_mul.1 hpoint
        rw [digit_eq] at hfraction
        exact ⟨⟨whole, some fraction, none⟩, ⟨hwhole, mem_kstar_single.1 hfraction,
          by simp [hnonempty], by simp⟩, rfl, rfl⟩
    · obtain ⟨hnonempty, hfraction⟩ := mem_digits.1 hfraction
      exact ⟨⟨[], some fraction, none⟩, ⟨by simp, hfraction, by simpa using hnonempty, by simp⟩,
        rfl, rfl⟩
  · rintro ⟨⟨whole, fraction, _⟩, hcomplete, rfl, rfl⟩
    by_cases hwhole : whole = []
    · -- without digits before the point there are some after it
      have hnonempty : fraction.getD [] ≠ [] := by simpa [hwhole] using hcomplete.nonempty
      cases fraction with
      | none => exact absurd rfl hnonempty
      | some fraction =>
        rw [hwhole]
        exact .inr ⟨'.', fraction, rfl, mem_digits.2 ⟨hnonempty, hcomplete.fraction⟩, rfl⟩
    · have hwhole := mem_digits.2 ⟨hwhole, hcomplete.whole⟩
      refine .inl ⟨whole, hwhole, (fraction.map ('.' :: ·)).getD [], mem_one_add.2 ?_, rfl⟩
      cases fraction with
      | none => exact .inl rfl
      | some fraction =>
        rw [digit_eq]
        exact .inr (mem_single_mul.2
          ⟨'.', fraction, rfl, mem_kstar_single.2 hcomplete.fraction, rfl⟩)

/-- The numbers of the language are the complete numerals. -/
theorem mem_number {word : List Char} :
    word ∈ number ↔ ∃ written : Numeral, written.IsComplete ∧ written.text = word := by
  rw [number, Language.mem_mul]
  constructor
  · rintro ⟨_, hfront, back, hback, rfl⟩
    obtain ⟨⟨whole, fraction, _⟩, hcomplete, rfl, rfl⟩ := mem_significand.1 hfront
    obtain rfl | hback := mem_one_add.1 hback
    · exact ⟨⟨whole, fraction, none⟩, hcomplete, rfl⟩
    · obtain ⟨written, hwritten, rfl⟩ := mem_exponent.1 hback
      exact ⟨⟨whole, fraction, some written⟩, ⟨hcomplete.whole, hcomplete.fraction,
        hcomplete.nonempty, by simpa using hwritten⟩, rfl⟩
  · rintro ⟨⟨whole, fraction, written⟩, hcomplete, rfl⟩
    have hfront := mem_significand.2 ⟨⟨whole, fraction, none⟩, ⟨hcomplete.whole,
      hcomplete.fraction, hcomplete.nonempty, by simp⟩, rfl, rfl⟩
    refine ⟨_, hfront, (written.map Exponent.text).getD [], mem_one_add.2 ?_, rfl⟩
    cases written with
    | none => exact .inl rfl
    | some written => exact .inr (mem_exponent.2 ⟨written, hcomplete.exponent written rfl, rfl⟩)

/-- The identifiers of the language are the names that are read as identifiers. -/
theorem mem_identifier {word : List Char} : word ∈ identifier ↔ isIdentifier word = true := by
  rw [identifier, letter_add_digit_eq, letter_eq, mem_single_mul]
  constructor
  · rintro ⟨c, cs, hc, hcs, rfl⟩
    exact Bool.and_eq_true_iff.2 ⟨hc, List.all_eq_true.2 (mem_kstar_single.1 hcs)⟩
  · intro h
    cases word with
    | nil => cases h
    | cons c cs =>
      obtain ⟨hc, hcs⟩ := Bool.and_eq_true_iff.1 h
      exact ⟨c, cs, hc, mem_kstar_single.2 (List.all_eq_true.1 hcs), rfl⟩

/-- The marks of the language are the symbols of the marks. -/
theorem mem_mark {word : List Char} : word ∈ mark ↔ ∃ written : Mark, [written.symbol] = word := by
  constructor
  · rintro ⟨c, hc, rfl⟩
    simp only [List.mem_cons, List.not_mem_nil, or_false] at hc
    obtain rfl | rfl | rfl | rfl | rfl | rfl | rfl := hc
    · exact ⟨.operator .add, rfl⟩
    · exact ⟨.operator .subtract, rfl⟩
    · exact ⟨.operator .multiply, rfl⟩
    · exact ⟨.operator .divide, rfl⟩
    · exact ⟨.opening, rfl⟩
    · exact ⟨.closing, rfl⟩
    · exact ⟨.comma, rfl⟩
  · rintro ⟨written, rfl⟩
    refine ⟨written.symbol, ?_, rfl⟩
    rcases written with op | _ | _ | _ <;> try decide
    cases op <;> decide

end Lexical

/-- A lexeme is complete: its numeral is, or its name is an identifier. -/
def Lexeme.IsComplete : Lexeme → Prop
  | .numeral written => written.IsComplete
  | .identifier name => isIdentifier name = true
  | .mark _ => True

/-- The tokens of the language are the complete lexemes. -/
theorem Lexical.mem_token {word : List Char} :
    word ∈ token ↔ ∃ lexeme : Lexeme, lexeme.IsComplete ∧ lexeme.text = word := by
  rw [token, Language.mem_add, Language.mem_add, mem_number, mem_identifier, mem_mark]
  constructor
  · rintro ((⟨written, hcomplete, rfl⟩ | hname) | ⟨written, rfl⟩)
    · exact ⟨.numeral written, hcomplete, rfl⟩
    · exact ⟨.identifier word, hname, rfl⟩
    · exact ⟨.mark written, trivial, rfl⟩
  · rintro ⟨written | name | written, hcomplete, rfl⟩
    · exact .inl (.inl ⟨written, hcomplete, rfl⟩)
    · exact .inl (.inr hcomplete)
    · exact .inr ⟨written, rfl⟩

end Calculator
