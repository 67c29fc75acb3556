import Calculator.Proofs.Fields
import Mathlib.Order.Monotone.Basic
import Mathlib.Tactic.Ring

/-!
# Patterns and units

The patterns of the finite numbers without a sign count upwards in the order of their units. A
pattern is a binary exponent and a significand, and the first pattern of the next exponent may
be taken as the last of this one. So a finite number is determined by its sign and its units.
-/

namespace Calculator.Number.Binary64

/-- Patterns of one binary exponent, the first of the next one included, count multiples of one
power of two. -/
theorem unitsOfPattern_add {shift significand : ℕ} (hlow : shift = 0 ∨ binade ≤ significand)
    (hhigh : significand ≤ 2 * binade) :
    unitsOfPattern (shift * binade + significand) = significand * Nat.pow 2 shift := by
  have hbinade : 0 < binade := by decide
  unfold unitsOfPattern
  rcases Nat.lt_or_ge significand binade with hsubnormal | hnormal
  · obtain rfl : shift = 0 := by omega
    rw [if_pos (by omega)]
    simp
  · rw [if_neg (by rw [Nat.not_lt]; exact hnormal.trans (Nat.le_add_left _ _))]
    rcases Nat.lt_or_eq_of_le hhigh with hfits | hcarry
    · have hsplit : shift * binade + significand =
          significand - binade + binade * (shift + 1) := by
        rw [Nat.mul_comm, Nat.mul_add]
        omega
      rw [hsplit, Nat.add_mul_div_left _ _ hbinade, Nat.add_mul_mod_self_left,
        Nat.div_eq_of_lt (by omega), Nat.mod_eq_of_lt (by omega), Nat.zero_add, Nat.add_sub_cancel,
        Nat.add_sub_cancel' hnormal]
    · have hsplit : shift * binade + significand = binade * (shift + 2) := by
        rw [Nat.mul_comm, Nat.mul_add]
        omega
      have hexponent : shift + 2 - 1 = shift + 1 := rfl
      rw [hsplit, Nat.mul_div_cancel_left _ hbinade, Nat.mul_mod_right, hcarry, hexponent,
        Nat.pow_eq, Nat.pow_eq, Nat.pow_succ]
      ring

/-- Every pattern is a binary exponent and a significand, which is short only for the least
exponent. -/
theorem exists_significand (pattern : ℕ) :
    ∃ shift significand, pattern = shift * binade + significand ∧
      (shift = 0 ∨ binade ≤ significand) ∧ significand < 2 * binade := by
  have hdivision := Nat.div_add_mod pattern binade
  have hremainder := Nat.mod_lt pattern (by decide : 0 < binade)
  rcases Nat.eq_zero_or_pos (pattern / binade) with hzero | hpos
  · refine ⟨0, pattern % binade, ?_, .inl rfl, by omega⟩
    rw [hzero, Nat.mul_zero] at hdivision
    omega
  · refine ⟨pattern / binade - 1, binade + pattern % binade, ?_, .inr (by omega), by omega⟩
    obtain ⟨shift, hshift⟩ := Nat.exists_eq_succ_of_ne_zero hpos.ne'
    rw [hshift, Nat.mul_succ] at hdivision
    rw [hshift, Nat.succ_sub_one, Nat.mul_comm]
    omega

/-- Greater patterns have more units. -/
theorem unitsOfPattern_strictMono : StrictMono unitsOfPattern := by
  apply strictMono_nat_of_lt_succ
  intro pattern
  obtain ⟨shift, significand, rfl, hlow, hhigh⟩ := exists_significand pattern
  rw [Nat.add_assoc, unitsOfPattern_add hlow hhigh.le, unitsOfPattern_add (by omega) hhigh]
  exact Nat.mul_lt_mul_of_pos_right (Nat.lt_succ_self _) (Nat.pow_pos (by decide))

/-- The units of a pattern are a multiple of a power of two, unless they are fewer than a
number with this last place has. -/
theorem dvd_unitsOfPattern_or_lt (shift pattern : ℕ) :
    Nat.pow 2 shift ∣ unitsOfPattern pattern ∨
      unitsOfPattern pattern < binade * Nat.pow 2 shift := by
  obtain ⟨shift', significand, rfl, hlow, hhigh⟩ := exists_significand pattern
  rw [unitsOfPattern_add hlow hhigh.le]
  rcases Nat.lt_or_ge shift' shift with hbelow | hreached
  · right
    calc significand * Nat.pow 2 shift'
        < 2 * binade * Nat.pow 2 shift' :=
          Nat.mul_lt_mul_of_pos_right hhigh (Nat.pow_pos (by decide))
      _ = binade * Nat.pow 2 (shift' + 1) := by
          rw [Nat.pow_eq, Nat.pow_eq, Nat.pow_succ]
          ring
      _ ≤ binade * Nat.pow 2 shift :=
          Nat.mul_le_mul_left _ (Nat.pow_le_pow_right (by decide) hbelow)
  · exact .inl (Nat.dvd_mul_left_of_dvd (Nat.pow_dvd_pow 2 hreached) _)

/-- A finite number has the units of its pattern. -/
theorem exists_pattern_of_finite {x : Float} {negative : Bool} {units : ℕ}
    (h : ofFloat x = .finite negative units) :
    ∃ pattern < infinityPattern, unitsOfPattern pattern = units := by
  unfold ofFloat at h
  dsimp only at h
  split at h
  · rename_i hpattern
    cases h
    exact ⟨_, hpattern, rfl⟩
  · split at h <;> cases h

/-- A finite number is determined by its sign and its units. -/
theorem eq_of_finite {x y : Float} {negative : Bool} {units : ℕ}
    (hx : ofFloat x = .finite negative units) (hy : ofFloat y = .finite negative units) :
    x = y := by
  obtain ⟨exponent, mantissa, hfinite, hword, _⟩ := exists_word_of_finite hx
  obtain ⟨exponent', mantissa', hfinite', hword', _⟩ := exists_word_of_finite hy
  have hsame := ((ofFloat_of_word hfinite hword).symm.trans hx).trans
    (hy.symm.trans (ofFloat_of_word hfinite' hword'))
  have hunits := (Binary64.finite.inj hsame).2
  have hpattern := unitsOfPattern_strictMono.injective hunits
  have hmantissa := mantissa.isLt
  have hmantissa' := mantissa'.isLt
  rw [binade_eq] at hpattern
  have hexponent : exponent = exponent' := BitVec.eq_of_toNat_eq (by omega)
  have hmantissas : mantissa = mantissa' := BitVec.eq_of_toNat_eq (by omega)
  rw [hexponent, hmantissas, ← hword'] at hword
  exact eq_of_toBits_eq (UInt64.toBitVec_inj.1 hword)

end Calculator.Number.Binary64
