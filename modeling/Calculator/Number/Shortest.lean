import Calculator.Number.Leading

/-!
# Shortest digits

A number is named by the shortest decimal that reads back as the same number. On the grid
of decimals with a given count of significant digits only the two neighbours of the number
can be nearest to it, so the search tries these, from one digit up to the seventeen that
always suffice. Of two that read back the nearer one is taken, and of two equally near the
greater one.
-/

namespace Calculator.Number

/-- A decimal reads back as the given number. -/
def Decimal.readsAs (number : Decimal) (x : Float) : Bool :=
  match number.toFloat? with
  | some y => y.toBits == x.toBits
  | none => false

/-- The decimal with the given exponent that is nearest to `n / d` of those that read as `x`. -/
def nearestReading? (x : Float) (n d : Nat) (exponent : Int) : Option Decimal :=
  let units := inUnits n d exponent
  let below : Decimal := ⟨units.1 / units.2, exponent⟩
  let above : Decimal := ⟨units.1 / units.2 + 1, exponent⟩
  let belowIsNearer := 2 * (units.1 % units.2) < units.2
  if below.readsAs x && (belowIsNearer || !above.readsAs x) then some below
  else if above.readsAs x then some above
  else none

/-- The first decimal found that reads as `x`, tried with `count + 1` significant digits, and
with one more each time, `more` times in all. -/
def firstReading (x : Float) (n d : Nat) : (more count : Nat) → Decimal
  | 0, count => roundSignificant count n d
  | more + 1, count =>
    match nearestReading? x n d (leadingExponent n d - count) with
    | some number => number
    | none => firstReading x n d more (count + 1)

/-- The shortest decimal that reads as the finite number without a sign of that many units. -/
def shortest (x : Float) (units : Nat) : Decimal :=
  if units = 0 then ⟨0, 0⟩ else firstReading x units Binary64.one 17 0

/-- A finite number by its shortest digits, without an exponent. -/
def shortestText (x : Float) : List Char :=
  match Binary64.ofFloat x with
  | .nan => ['N', 'a', 'N']
  | .infinite negative => (if negative then ['-'] else []) ++ ['i', 'n', 'f']
  | .finite negative units =>
    (if negative then ['-'] else []) ++ (shortest x.abs units).positional

end Calculator.Number
