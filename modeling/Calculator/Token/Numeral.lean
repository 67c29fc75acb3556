import Calculator.Operator
import Calculator.Number.Decimal

/-!
# Numerals

A numeral has digits before a point, after it, or on both sides, and may end in an exponent
of ten. Reading takes the longest numeral at the start of a text: a point with no digit on
either side is no numeral, and an exponent mark without digits is left unread.

The main statement is that a numeral and the rest of the text after it make up the text.
-/

namespace Calculator

/-- The exponent of a numeral as written. -/
structure Exponent where
  /-- The letter that opens it, in either case. -/
  letter : Char
  /-- The sign, if one is written. -/
  sign : Option Sign
  /-- Its digits. -/
  digits : List Char
deriving Repr, DecidableEq

namespace Exponent

/-- The characters of an exponent. -/
def text (exponent : Exponent) : List Char :=
  exponent.letter :: (exponent.sign.map Sign.symbol).toList ++ exponent.digits

/-- The power of ten that an exponent stands for. -/
def value (exponent : Exponent) : Int :=
  let magnitude : Int := Nat.ofDigitChars 10 exponent.digits 0
  if exponent.sign = some .minus then -magnitude else magnitude

/-- A sign at the start of a text, if there is one, and the rest. -/
def scanSign : List Char → Option Sign × List Char
  | [] => (none, [])
  | c :: rest =>
    match Sign.ofSymbol? c with
    | some sign => (some sign, rest)
    | none => (none, c :: rest)

/-- The exponent at the start of a text, if there is one, and the rest. -/
def scan : List Char → Option Exponent × List Char
  | [] => (none, [])
  | c :: rest =>
    if c = 'e' ∨ c = 'E' then
      let digits := (scanSign rest).2.takeWhile Char.isDigit
      if digits.isEmpty then (none, c :: rest)
      else (some ⟨c, (scanSign rest).1, digits⟩, (scanSign rest).2.dropWhile Char.isDigit)
    else (none, c :: rest)

/-- A sign and what follows it make up the text. -/
theorem scanSign_append (cs : List Char) :
    ((scanSign cs).1.map Sign.symbol).toList ++ (scanSign cs).2 = cs := by
  unfold scanSign
  split
  · rfl
  · split
    · rename_i hsign
      simp [Sign.ofSymbol?_eq_some_iff.1 hsign]
    · rfl

/-- An exponent and what follows it make up the text. -/
theorem scan_append (cs : List Char) :
    ((scan cs).1.map text).getD [] ++ (scan cs).2 = cs := by
  unfold scan
  split
  · rfl
  · rename_i c rest
    split
    · have hsign := scanSign_append rest
      dsimp only
      split
      · rfl
      · simpa [text] using hsign
    · rfl

end Exponent

/-- A numeral as written. -/
structure Numeral where
  /-- The digits before the point. -/
  whole : List Char
  /-- The digits after the point, if there is a point. -/
  fraction : Option (List Char)
  /-- The exponent, if there is one. -/
  exponent : Option Exponent
deriving Repr, DecidableEq

namespace Numeral

/-- The characters of a numeral. -/
def text (numeral : Numeral) : List Char :=
  numeral.whole ++ (numeral.fraction.map ('.' :: ·)).getD [] ++
    (numeral.exponent.map Exponent.text).getD []

/-- The decimal number that a numeral denotes. -/
def value (numeral : Numeral) : Number.Decimal :=
  let fraction := numeral.fraction.getD []
  ⟨Nat.ofDigitChars 10 (numeral.whole ++ fraction) 0,
    (numeral.exponent.map Exponent.value).getD 0 - fraction.length⟩

/-- The digits of a numeral without its exponent, and the rest of the text. -/
def scanDigits (cs : List Char) : (List Char × Option (List Char)) × List Char :=
  let whole := cs.takeWhile Char.isDigit
  match cs.dropWhile Char.isDigit with
  | '.' :: rest =>
    let fraction := rest.takeWhile Char.isDigit
    if whole.isEmpty && fraction.isEmpty then (([], none), cs)
    else ((whole, some fraction), rest.dropWhile Char.isDigit)
  | rest => ((whole, none), rest)

/-- The longest numeral at the start of a text, and the rest. -/
def scan? (cs : List Char) : Option (Numeral × List Char) :=
  match scanDigits cs with
  | (([], none), _) => none
  | ((whole, fraction), rest) =>
    some (⟨whole, fraction, (Exponent.scan rest).1⟩, (Exponent.scan rest).2)

/-- The digits and what follows them make up the text. -/
theorem scanDigits_append (cs : List Char) :
    (scanDigits cs).1.1 ++ ((scanDigits cs).1.2.map ('.' :: ·)).getD [] ++ (scanDigits cs).2 =
      cs := by
  unfold scanDigits
  split
  · rename_i rest hrest
    have hsplit : cs.takeWhile Char.isDigit ++ cs.dropWhile Char.isDigit = cs :=
      List.takeWhile_append_dropWhile
    rw [hrest] at hsplit
    dsimp only
    split
    · rfl
    · simpa using hsplit
  · simp

/-- A numeral and what follows it make up the text. -/
theorem text_append_of_scan? {cs rest : List Char} {numeral : Numeral}
    (h : scan? cs = some (numeral, rest)) : numeral.text ++ rest = cs := by
  have hdigits := scanDigits_append cs
  unfold scan? at h
  split at h
  · cases h
  · rename_i whole fraction rest' _ hscanned
    rw [hscanned] at hdigits
    obtain ⟨rfl, rfl⟩ := Prod.mk.inj (Option.some.inj h)
    rw [text, List.append_assoc, Exponent.scan_append]
    exact hdigits

/-- A numeral is not empty. -/
theorem text_ne_nil_of_scan? {cs rest : List Char} {numeral : Numeral}
    (h : scan? cs = some (numeral, rest)) : numeral.text ≠ [] := by
  unfold scan? at h
  split at h
  · cases h
  · rename_i whole fraction rest' hwritten _
    obtain ⟨rfl, _⟩ := Prod.mk.inj (Option.some.inj h)
    intro hempty
    simp only [text, List.append_eq_nil_iff] at hempty
    obtain ⟨⟨rfl, hfraction⟩, _⟩ := hempty
    cases fraction with
    | none => exact hwritten rfl rfl
    | some digits => simp at hfraction

end Numeral

end Calculator
