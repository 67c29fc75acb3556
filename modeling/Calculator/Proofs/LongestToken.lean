import Calculator.Proofs.TokenLanguage
import Mathlib.Data.List.TakeWhile

/-!
# The longest token

Reading takes as many characters as it can at every step: the digits, then the point and the
digits after it, then an exponent. A complete lexeme found in this way leaves no more of the
text unread than any other complete lexeme at the same place, so it is the longest token there.
-/

namespace Calculator

namespace Exponent

/-- What is scanned as an exponent is complete. -/
theorem isComplete_of_scan {cs : List Char} {exponent : Exponent}
    (h : (scan cs).1 = some exponent) : exponent.IsComplete := by
  unfold scan at h
  split at h
  · cases h
  · split at h
    · rename_i hletter
      dsimp only at h
      split at h
      · cases h
      · rename_i hnonempty
        cases h
        exact ⟨hletter, by simpa using hnonempty, fun c hc => List.mem_takeWhile_imp hc⟩
    · cases h

/-- Scanning an exponent leaves no more than there was. -/
theorem length_scan_le_length (cs : List Char) : (scan cs).2.length ≤ cs.length := by
  have hlength := congrArg List.length (scan_append cs)
  rw [List.length_append] at hlength
  omega

/-- Scanning leaves no more unread than an exponent that is written there leaves. -/
theorem length_scan_le {exponent : Exponent} (h : exponent.IsComplete) (rest : List Char) :
    (scan (exponent.text ++ rest)).2.length ≤ rest.length := by
  obtain ⟨letter, sign, digits⟩ := exponent
  obtain ⟨hletter, hnonempty, hdigits⟩ := h
  have hsign := scanSign_append_digits sign hnonempty hdigits rest
  have htake : ((digits ++ rest).takeWhile Char.isDigit).isEmpty = false := by
    rw [List.takeWhile_append_of_pos hdigits]
    simpa using fun hempty => absurd hempty hnonempty
  have hdrop : (digits ++ rest).dropWhile Char.isDigit = rest.dropWhile Char.isDigit :=
    List.dropWhile_append_of_pos hdigits
  simp only [text, List.cons_append, List.append_assoc, scan, if_pos hletter, hsign, htake,
    hdrop, Bool.false_eq_true, if_false]
  exact (List.dropWhile_suffix _).length_le

/-- There are no digits to skip before an exponent. -/
theorem dropWhile_text_append {exponent : Exponent} (h : exponent.IsComplete)
    (rest : List Char) :
    (exponent.text ++ rest).dropWhile Char.isDigit = exponent.text ++ rest :=
  (takeWhile_of_head? fun c hc => (head?_text_append h rest c hc).1).2

/-- Where digits are skipped before an exponent that may be written there, scanning leaves no
more unread than it leaves. -/
theorem length_scan_dropWhile_le {exponent : Option Exponent}
    (h : ∀ written ∈ exponent, written.IsComplete) (rest : List Char) :
    (scan (((exponent.map text).getD [] ++ rest).dropWhile Char.isDigit)).2.length ≤
      rest.length := by
  cases exponent with
  | none =>
    exact (length_scan_le_length _).trans (List.dropWhile_suffix Char.isDigit).length_le
  | some written =>
    rw [Option.map_some, Option.getD_some, dropWhile_text_append (h written rfl)]
    exact length_scan_le (h written rfl) rest

/-- After digits a point follows only where no exponent is written. -/
theorem length_le_of_dropWhile_eq {exponent : Option Exponent}
    (h : ∀ written ∈ exponent, written.IsComplete) {rest others : List Char}
    (hpoint : ((exponent.map text).getD [] ++ rest).dropWhile Char.isDigit = '.' :: others) :
    others.length ≤ rest.length := by
  cases exponent with
  | none =>
    have hlength := (List.dropWhile_suffix (l := rest) Char.isDigit).length_le
    rw [Option.map_none, Option.getD_none, List.nil_append] at hpoint
    rw [hpoint, List.length_cons] at hlength
    omega
  | some written =>
    rw [Option.map_some, Option.getD_some, dropWhile_text_append (h written rfl)] at hpoint
    exact absurd rfl (head?_text_append (h written rfl) rest '.' (by rw [hpoint]; rfl)).2

end Exponent

namespace Numeral

/-- Digits that no point follows are read as far as they go. -/
theorem scanDigits_of_head? {cs : List Char}
    (h : ∀ c ∈ (cs.dropWhile Char.isDigit).head?, c ≠ '.') :
    scanDigits cs = ((cs.takeWhile Char.isDigit, none), cs.dropWhile Char.isDigit) := by
  unfold scanDigits
  split
  · rename_i rest hrest
    exact absurd rfl (h '.' (by rw [hrest]; rfl))
  · rfl

/-- Digits around a point are read as far as they go. -/
theorem scanDigits_of_point {cs back : List Char} (h : cs.dropWhile Char.isDigit = '.' :: back)
    (hsome : cs.takeWhile Char.isDigit ++ back.takeWhile Char.isDigit ≠ []) :
    scanDigits cs =
      ((cs.takeWhile Char.isDigit, some (back.takeWhile Char.isDigit)),
        back.dropWhile Char.isDigit) := by
  have hnone : ¬ ((cs.takeWhile Char.isDigit).isEmpty &&
      (back.takeWhile Char.isDigit).isEmpty) = true := by
    simpa using hsome
  unfold scanDigits
  rw [h]
  exact if_neg hnone

/-- The digits that are read are complete without an exponent. -/
theorem isComplete_of_scanDigits {cs after whole : List Char} {fraction : Option (List Char)}
    (h : scanDigits cs = ((whole, fraction), after)) (hsome : ¬ (whole = [] ∧ fraction = none)) :
    (⟨whole, fraction, none⟩ : Numeral).IsComplete := by
  unfold scanDigits at h
  split at h
  · dsimp only at h
    split at h
    · cases h
      exact absurd ⟨rfl, rfl⟩ hsome
    · rename_i hnonempty
      cases h
      exact ⟨fun c hc => List.mem_takeWhile_imp hc, fun c hc => List.mem_takeWhile_imp hc,
        by simpa using hnonempty, by simp⟩
  · cases h
    exact ⟨fun c hc => List.mem_takeWhile_imp hc, by simp, by simpa using hsome, by simp⟩

/-- After the digits comes an exponent, if there is one. -/
theorem scan?_of_scanDigits {cs after whole : List Char} {fraction : Option (List Char)}
    (h : scanDigits cs = ((whole, fraction), after)) (hsome : ¬ (whole = [] ∧ fraction = none)) :
    scan? cs = some (⟨whole, fraction, (Exponent.scan after).1⟩, (Exponent.scan after).2) := by
  unfold scan?
  rw [h]
  split
  · rename_i hnone
    cases hnone
    exact absurd ⟨rfl, rfl⟩ hsome
  · rename_i heq
    cases heq
    rfl

/-- What is scanned as a numeral is complete. -/
theorem isComplete_of_scan? {cs rest : List Char} {numeral : Numeral}
    (h : scan? cs = some (numeral, rest)) : numeral.IsComplete := by
  unfold scan? at h
  split at h
  · cases h
  · rename_i whole fraction after hsome hdigits
    cases h
    have hcomplete := isComplete_of_scanDigits hdigits fun hnone => hsome hnone.1 hnone.2
    exact ⟨hcomplete.whole, hcomplete.fraction, hcomplete.nonempty,
      fun exponent hexponent => Exponent.isComplete_of_scan hexponent⟩

/-- If reading the digits and then an exponent leaves no more than `rest`, so does scanning. -/
theorem exists_scan?_of_scanDigits {cs after whole rest : List Char}
    {fraction : Option (List Char)} (h : scanDigits cs = ((whole, fraction), after))
    (hsome : ¬ (whole = [] ∧ fraction = none))
    (hlength : (Exponent.scan after).2.length ≤ rest.length) :
    ∃ found after, scan? cs = some (found, after) ∧ after.length ≤ rest.length :=
  ⟨_, _, scan?_of_scanDigits h hsome, hlength⟩

/-- Scanning leaves no more unread than a numeral with a point that is written there leaves. -/
theorem exists_scan?_of_fraction {whole fraction : List Char} {exponent : Option Exponent}
    (h : (⟨whole, some fraction, exponent⟩ : Numeral).IsComplete) (rest : List Char) :
    ∃ found after, scan? (text ⟨whole, some fraction, exponent⟩ ++ rest) = some (found, after) ∧
      after.length ≤ rest.length := by
  let back := (exponent.map Exponent.text).getD [] ++ rest
  have hsplit : text ⟨whole, some fraction, exponent⟩ ++ rest =
      whole ++ '.' :: (fraction ++ back) := by simp [text, back]
  have hpoint : ∀ c ∈ ('.' :: (fraction ++ back)).head?, c.isDigit = false := by simp
  obtain ⟨htake, hdrop⟩ := takeWhile_append_of_head? h.whole hpoint
  have hfraction : (fraction ++ back).takeWhile Char.isDigit =
      fraction ++ back.takeWhile Char.isDigit := List.takeWhile_append_of_pos h.fraction
  have hback : (fraction ++ back).dropWhile Char.isDigit = back.dropWhile Char.isDigit :=
    List.dropWhile_append_of_pos h.fraction
  rw [hsplit]
  refine exists_scan?_of_scanDigits (scanDigits_of_point hdrop ?_) (by simp) ?_
  · rw [htake, hfraction, ← List.append_assoc]
    exact List.append_ne_nil_of_left_ne_nil h.nonempty _
  · rw [hback]
    exact Exponent.length_scan_dropWhile_le h.exponent rest

/-- Scanning leaves no more unread than a numeral without a point that is written there leaves. -/
theorem exists_scan?_of_whole {whole : List Char} {exponent : Option Exponent}
    (h : (⟨whole, none, exponent⟩ : Numeral).IsComplete) (rest : List Char) :
    ∃ found after, scan? (text ⟨whole, none, exponent⟩ ++ rest) = some (found, after) ∧
      after.length ≤ rest.length := by
  let back := (exponent.map Exponent.text).getD [] ++ rest
  have hsplit : text ⟨whole, none, exponent⟩ ++ rest = whole ++ back := by simp [text, back]
  have htake : (whole ++ back).takeWhile Char.isDigit = whole ++ back.takeWhile Char.isDigit :=
    List.takeWhile_append_of_pos h.whole
  have hdrop : (whole ++ back).dropWhile Char.isDigit = back.dropWhile Char.isDigit :=
    List.dropWhile_append_of_pos h.whole
  have hnonempty : whole ≠ [] := by simpa using h.nonempty
  rw [hsplit]
  by_cases hpoint : ∃ others, back.dropWhile Char.isDigit = '.' :: others
  · -- The point and the digits after it are read as well, so nothing else is written there.
    obtain ⟨others, hothers⟩ := hpoint
    refine exists_scan?_of_scanDigits (scanDigits_of_point (hdrop.trans hothers) ?_) (by simp) ?_
    · rw [htake, List.append_assoc]
      exact List.append_ne_nil_of_left_ne_nil hnonempty _
    · have hothers := Exponent.length_le_of_dropWhile_eq h.exponent hothers
      have hdigits := (List.dropWhile_suffix (l := others) Char.isDigit).length_le
      exact (Exponent.length_scan_le_length _).trans (hdigits.trans hothers)
  · refine exists_scan?_of_scanDigits (scanDigits_of_head? ?_) (by simp [htake, hnonempty]) ?_
    · rintro _ hc rfl
      obtain ⟨others, hothers⟩ := List.head?_eq_some_iff.1 hc
      exact hpoint ⟨others, hdrop.symm.trans hothers⟩
    · rw [hdrop]
      exact Exponent.length_scan_dropWhile_le h.exponent rest

/-- Scanning finds a numeral where a complete one is written, and leaves no more unread. -/
theorem exists_scan?_text_append {numeral : Numeral} (h : numeral.IsComplete)
    (rest : List Char) : ∃ found after, scan? (numeral.text ++ rest) = some (found, after) ∧
      after.length ≤ rest.length := by
  obtain ⟨whole, _ | fraction, exponent⟩ := numeral
  · exact exists_scan?_of_whole h rest
  · exact exists_scan?_of_fraction h rest

end Numeral

namespace Lexeme

/-- What is scanned as a lexeme is complete. -/
theorem isComplete_of_scan? {cs rest : List Char} {lexeme : Lexeme}
    (h : scan? cs = some (lexeme, rest)) : lexeme.IsComplete := by
  rcases cases_of_scan? h with ⟨written, rfl, hnumeral⟩ | ⟨name, rfl, hname⟩ | ⟨written, rfl, _⟩
  · exact Numeral.isComplete_of_scan? hnumeral
  · exact isIdentifier_of_scanIdentifier? hname
  · trivial

/-- Scanning finds an identifier where one is written, and leaves no more unread. -/
theorem exists_scan?_identifier_append {name : List Char} (h : isIdentifier name = true)
    (rest : List Char) : ∃ found after, scan? (name ++ rest) = some (found, after) ∧
      after.length ≤ rest.length := by
  cases name with
  | nil => cases h
  | cons c cs =>
    simp only [isIdentifier, Bool.and_eq_true, List.all_eq_true] at h
    obtain ⟨hstart, hall⟩ := h
    refine ⟨_, _, scan?_cons_of_startsIdentifier hstart (cs ++ rest), ?_⟩
    rw [List.dropWhile_append_of_pos hall]
    exact (List.dropWhile_suffix _).length_le

/-- Scanning finds a lexeme where a complete one is written, and leaves no more unread. -/
theorem exists_scan?_text_append {lexeme : Lexeme} (h : lexeme.IsComplete) (rest : List Char) :
    ∃ found after, scan? (lexeme.text ++ rest) = some (found, after) ∧
      after.length ≤ rest.length := by
  cases lexeme with
  | numeral written =>
    obtain ⟨found, after, hscan, hlength⟩ := Numeral.exists_scan?_text_append h rest
    refine ⟨.numeral found, after, ?_, hlength⟩
    rw [scan?, text, hscan]
  | identifier name => exact exists_scan?_identifier_append h rest
  | mark written => exact ⟨.mark written, rest, scan?_symbol_cons written rest, Nat.le_refl _⟩

/-- A complete lexeme is the only one with its characters. -/
theorem eq_of_text_eq {lexeme other : Lexeme} (h : lexeme.IsComplete) (hother : other.IsComplete)
    (htext : lexeme.text = other.text) : lexeme = other := by
  have hscan : ∀ {lexeme : Lexeme}, lexeme.IsComplete →
      scan? (lexeme.text ++ []) = some (lexeme, []) := by
    rintro (written | name | written) hcomplete
    · exact scan?_numeral_append hcomplete cuts_nil
    · exact scan?_identifier_append hcomplete cuts_nil
    · exact scan?_symbol_cons written []
  have heq := hscan h
  rw [htext, hscan hother] at heq
  exact (Prod.mk.inj (Option.some.inj heq)).1.symm

end Lexeme

namespace Lexical

/-- A word is the longest one of a language that a text starts with. -/
structure IsLongest (language : Language Char) (text word : List Char) : Prop where
  mem : word ∈ language
  starts : word <+: text
  longest : ∀ other ∈ language, other <+: text → other.length ≤ word.length

/-- The longest word at the start of a text is unique. -/
theorem IsLongest.eq {language : Language Char} {text word other : List Char}
    (h : IsLongest language text word) (hother : IsLongest language text other) :
    word = other := by
  have hle := hother.longest word h.mem h.starts
  have hge := h.longest other hother.mem hother.starts
  exact (List.prefix_of_prefix_length_le h.starts hother.starts hle).eq_of_length
    (Nat.le_antisymm hle hge)

end Lexical

namespace Lexeme

/-- What is scanned as a lexeme is the longest token at the start of the text. -/
theorem isLongest_of_scan? {cs rest : List Char} {lexeme : Lexeme}
    (h : scan? cs = some (lexeme, rest)) : Lexical.IsLongest Lexical.token cs lexeme.text where
  mem := Lexical.mem_token.2 ⟨lexeme, isComplete_of_scan? h, rfl⟩
  starts := ⟨rest, text_append_of_scan? h⟩
  longest := by
    rintro _ hmem ⟨others, hothers⟩
    obtain ⟨other, hcomplete, rfl⟩ := Lexical.mem_token.1 hmem
    obtain ⟨found, after, hscan, hlength⟩ := exists_scan?_text_append hcomplete others
    rw [hothers, h] at hscan
    cases hscan
    have hboth := congrArg List.length (hothers.trans (text_append_of_scan? h).symm)
    rw [List.length_append, List.length_append] at hboth
    omega

/-- An exponent without digits is no part of the longest token. -/
example : scan? ['1', 'e', '+'] = some (.numeral ⟨['1'], none, none⟩, ['e', '+']) := by
  decide

/-- No lexeme is scanned exactly if the text does not start with a token. -/
theorem scan?_eq_none_iff {cs : List Char} :
    scan? cs = none ↔ ∀ word ∈ Lexical.token, ¬ word <+: cs := by
  constructor
  · rintro hnone _ hmem ⟨rest, rfl⟩
    obtain ⟨lexeme, hcomplete, rfl⟩ := Lexical.mem_token.1 hmem
    obtain ⟨found, after, hscan, _⟩ := exists_scan?_text_append hcomplete rest
    rw [hscan] at hnone
    cases hnone
  · intro h
    cases hscan : scan? cs with
    | none => rfl
    | some found =>
      have hlongest := isLongest_of_scan? hscan
      exact absurd hlongest.starts (h _ hlongest.mem)

/-- A complete lexeme is scanned where it is the longest token. -/
theorem scan?_of_isLongest {lexeme : Lexeme} (h : lexeme.IsComplete) {rest : List Char}
    (hlongest : Lexical.IsLongest Lexical.token (lexeme.text ++ rest) lexeme.text) :
    scan? (lexeme.text ++ rest) = some (lexeme, rest) := by
  obtain ⟨found, after, hscan, _⟩ := exists_scan?_text_append h rest
  have htext := (isLongest_of_scan? hscan).eq hlongest
  obtain rfl := eq_of_text_eq (isComplete_of_scan? hscan) h htext
  rw [hscan, List.append_cancel_left (text_append_of_scan? hscan)]

end Lexeme

end Calculator
