import Calculator.Number.Decimal

/-!
# Leading digits

The leading decimal digit of a positive quotient stands at the greatest power of ten that
does not exceed it. Counting from that digit, the quotient is rounded to a given number of
significant digits; a carry out of them moves the result to the next power of ten.
-/

namespace Calculator.Number

/-- The number of decimal digits of a natural number. -/
def digitCount (n : Nat) : Nat :=
  (Nat.toDigits 10 n).length

/-- The greatest `e` with `10 ^ e ≤ n / d`, for positive `n` and `d`. -/
def leadingExponent (n d : Nat) : Int :=
  if d ≤ n then digitCount (n / d) - 1 else -digitCount ((d - 1) / n)

/-- The quotient `n / d` in units of `10 ^ exponent`, as a numerator and a denominator. -/
def inUnits (n d : Nat) (exponent : Int) : Nat × Nat :=
  (n * Nat.pow 10 (-exponent).toNat, d * Nat.pow 10 exponent.toNat)

/-- The quotient `n / d` rounded to a multiple of `10 ^ exponent`, ties going to the even one. -/
def roundTo (n d : Nat) (exponent : Int) : Decimal :=
  let units := inUnits n d exponent
  ⟨roundQuotient units.1 units.2, exponent⟩

/-- The quotient `n / d` rounded to `count + 1` significant digits, with exactly these digits. -/
def roundSignificant (count n d : Nat) : Decimal :=
  let rounded := roundTo n d (leadingExponent n d - count)
  if rounded.coefficient = Nat.pow 10 (count + 1) then ⟨Nat.pow 10 count, rounded.exponent + 1⟩
  else rounded

end Calculator.Number
