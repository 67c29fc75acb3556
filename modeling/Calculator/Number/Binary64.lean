import Calculator.Number.Rounding

/-!
# Binary64 numbers by what they denote

A finite number of the binary64 format is a sign and a natural number of units of
`2 ^ -1074`, the smallest positive number of the format. The bit patterns of the finite
numbers without a sign count upwards from zero in the order of the numbers themselves,
so rounding an exact quotient to the nearest number is rounding to a pattern.

A quotient too large for the format rounds to a pattern past the finite ones and has no
nearest number here.
-/

namespace Calculator.Number

/-- What a binary64 number denotes. -/
inductive Binary64 where
  /-- Not a number. -/
  | nan
  /-- An infinity. -/
  | infinite (negative : Bool)
  /-- A number of units of `2 ^ -1074`, with its sign, which a zero has too. -/
  | finite (negative : Bool) (units : Nat)
deriving Repr, DecidableEq

namespace Binary64

/-- The number one, in units. -/
def one : Nat := Nat.pow 2 1074

/-- The number of patterns that share a binary exponent, and so the least significand of a
number that is not subnormal. -/
def binade : Nat := Nat.pow 2 52

/-- The bit that stands for a minus sign. -/
def signBit : Nat := Nat.pow 2 63

/-- The pattern of infinity without a sign, the first that is not finite. -/
def infinityPattern : Nat := 2047 * binade

/-- The units of the finite number without a sign that has this pattern. -/
def unitsOfPattern (pattern : Nat) : Nat :=
  if pattern < binade then pattern
  else (binade + pattern % binade) * Nat.pow 2 (pattern / binade - 1)

/-- What a floating-point number denotes, read off its bits. -/
def ofFloat (x : Float) : Binary64 :=
  let bits := x.toBits.toNat
  let negative := decide (signBit ≤ bits)
  let pattern := bits % signBit
  if pattern < infinityPattern then finite negative (unitsOfPattern pattern)
  else if pattern = infinityPattern then infinite negative
  else nan

/-- The pattern nearest to `n / d`, ties going to the even one, were there no greatest number. -/
def nearestPattern (n d : Nat) : Nat :=
  let shift := (one * n / d).log2 - 52
  shift * binade + roundQuotient (one * n) (d * Nat.pow 2 shift)

/-- The finite number nearest to `n / d`, ties going to the even one; none past the range. -/
def nearest? (n d : Nat) : Option Float :=
  if nearestPattern n d < infinityPattern then
    some (Float.ofBits (nearestPattern n d).toUInt64)
  else none

end Binary64

end Calculator.Number
