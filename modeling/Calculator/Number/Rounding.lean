/-!
# Rounding a quotient

One rule serves every conversion between decimal and binary: the exact quotient of two
natural numbers goes to the nearest natural number, and a quotient halfway between two of
them goes to the even one.

The main statements bound the error by half a unit and say where a tie goes.
-/

namespace Calculator.Number

/-- The natural number nearest to `n / d`; a tie goes to the even neighbour. -/
def roundQuotient (n d : Nat) : Nat :=
  if 2 * (n % d) < d then n / d
  else if d < 2 * (n % d) then n / d + 1
  else n / d + n / d % 2

/-- The rounded quotient exceeds the exact one by at most half a unit, and falls short of it by
at most half a unit. -/
theorem two_mul_roundQuotient_mul_bounds (n : Nat) {d : Nat} (h : 0 < d) :
    2 * (d * roundQuotient n d) ≤ 2 * n + d ∧ 2 * n ≤ 2 * (d * roundQuotient n d) + d := by
  have hdivision := Nat.div_add_mod n d
  have hremainder := Nat.mod_lt n h
  unfold roundQuotient
  split
  · omega
  · split
    · rw [Nat.mul_add]; omega
    · rcases Nat.mod_two_eq_zero_or_one (n / d) with heven | hodd
      · rw [heven, Nat.add_zero]; omega
      · rw [hodd, Nat.mul_add]; omega

/-- A quotient halfway between two natural numbers goes to the even one. -/
theorem roundQuotient_even_of_tie {n d : Nat} (h : 2 * (n % d) = d) :
    roundQuotient n d % 2 = 0 := by
  unfold roundQuotient
  rw [if_neg (by omega), if_neg (by omega)]
  omega

end Calculator.Number
