import Calculator.Number.Leading

/-!
# General notation

A number is written with a fixed count of significant digits and without zeros at the end
of its fraction: positionally while its leading digit stands near the point, with an
exponent of ten otherwise. Rounding to the significant digits comes first, since it fixes
where the leading digit stands; the positional form is then rounded anew, to the places
that this leaves.
-/

namespace Calculator.Number

/-- What general notation leaves open. -/
structure GeneralNotation where
  /-- The significant digits after the first one. -/
  further : Nat
  /-- The least exponent of the leading digit that is written positionally. -/
  leastPositional : Int
  /-- The least number of digits of a written exponent. -/
  exponentWidth : Nat
deriving Repr, DecidableEq

namespace GeneralNotation

/-- A power of ten as a suffix, its sign always written. -/
def exponentSuffix (style : GeneralNotation) (exponent : Int) : List Char :=
  'e' :: (if exponent < 0 then '-' else '+') ::
    Decimal.padZeros style.exponentWidth (Nat.toDigits 10 exponent.natAbs)

/-- The positive quotient `n / d` in general notation. -/
def magnitude (style : GeneralNotation) (n d : Nat) : List Char :=
  let rounded := roundSignificant style.further n d
  let leading := rounded.exponent + style.further
  if leading < style.leastPositional ∨ style.further < leading then
    Decimal.positional ⟨rounded.coefficient, -style.further⟩ ++ style.exponentSuffix leading
  else
    (roundTo n d rounded.exponent).positional

/-- A number in general notation. -/
def text (style : GeneralNotation) (x : Float) : List Char :=
  match Binary64.ofFloat x with
  | .nan => ['N', 'a', 'N']
  | .infinite negative => (if negative then '-' else '+') :: ['I', 'n', 'f']
  | .finite negative units =>
    let digits := if units = 0 then ['0'] else style.magnitude units Binary64.one
    if negative then '-' :: digits else digits

end GeneralNotation

end Calculator.Number
