import Calculator.Number.Binary64

/-!
# Decimal numbers

A decimal number is a natural number times a power of ten. It is read as the nearest
binary64 number however many digits it has and however large its exponent is; the two
guards only keep the exact arithmetic small where the answer is known beforehand. It is
written positionally, without zeros at the end of its fraction.
-/

namespace Calculator.Number

/-- The number `coefficient * 10 ^ exponent`. -/
structure Decimal where
  /-- The digits, read as one natural number. -/
  coefficient : Nat
  /-- The power of ten they are multiplied by. -/
  exponent : Int
deriving Repr, DecidableEq

namespace Decimal

/-- The coefficient with the zeros that a positive exponent appends to it. -/
def numerator (number : Decimal) : Nat :=
  number.coefficient * Nat.pow 10 number.exponent.toNat

/-- The power of ten that a negative exponent divides by. -/
def denominator (number : Decimal) : Nat :=
  Nat.pow 10 (-number.exponent).toNat

/-- The denominator is not zero. -/
theorem denominator_pos (number : Decimal) : 0 < number.denominator :=
  Nat.pow_pos (by decide)

/-- The number is zero or so small that it rounds to zero, as its exponent alone shows. -/
def isNegligible (number : Decimal) : Bool :=
  number.coefficient = 0 ∨ number.exponent < -(number.coefficient.log2 + 325)

/-- The nearest binary64 number, ties going to the even one; none past the finite range. -/
def toFloat? (number : Decimal) : Option Float :=
  if number.isNegligible then some 0.0
  else if 308 < number.exponent then none
  else Binary64.nearest? number.numerator number.denominator

/-- Digits without the zeros at their end. -/
def trimZeros (digits : List Char) : List Char :=
  (digits.reverse.dropWhile (· == '0')).reverse

/-- Digits filled up with zeros on the left to a given width. -/
def padZeros (width : Nat) (digits : List Char) : List Char :=
  List.replicate (width - digits.length) '0' ++ digits

/-- The number without an exponent; a point stands only before a fraction that is not zero. -/
def positional (number : Decimal) : List Char :=
  let places := (-number.exponent).toNat
  let whole := Nat.toDigits 10 (number.numerator / number.denominator)
  let fraction :=
    trimZeros (padZeros places (Nat.toDigits 10 (number.numerator % number.denominator)))
  if fraction.isEmpty then whole else whole ++ '.' :: fraction

/-- Zeros on the left fill digits up to the width they lack. -/
theorem length_padZeros (width : Nat) (digits : List Char) :
    (padZeros width digits).length = max width digits.length := by
  rw [padZeros, List.length_append, List.length_replicate]
  omega

/-- Zeros appended at the end do not change what is left after trimming. -/
theorem trimZeros_append_replicate (digits : List Char) (n : Nat) :
    trimZeros (digits ++ List.replicate n '0') = trimZeros digits := by
  simp [trimZeros]

/-- Trimmed digits do not end in a zero. -/
theorem getLast?_trimZeros_ne (digits : List Char) : (trimZeros digits).getLast? ≠ some '0' := by
  intro hlast
  rw [trimZeros, List.getLast?_reverse] at hlast
  have hdropped := List.head?_dropWhile_not (· == '0') digits.reverse
  rw [hlast] at hdropped
  simp at hdropped

end Decimal

end Calculator.Number
