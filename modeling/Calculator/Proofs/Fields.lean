import Calculator.Number.Binary64
import Mathlib.Data.Int.Notation
import Mathlib.Data.Nat.Notation

/-!
# The fields of a finite number

A finite number is a sign bit, an exponent field and a mantissa field. Unpacking it and packing
it again gives the same fields, so the absolute value of a finite number is the number without
its sign bit, a number with its sign bit set is what its absolute value negated is, and a
finite pattern is the number it stands for. The field of ones, which stands for infinities and
for what is not a number, is left out.
-/

namespace Calculator.Number.Binary64

open Float.Model (Format UnpackedFloat)
open Float.Model.UnpackedFloat

/-- The sign bit in digits. -/
theorem signBit_eq : signBit = 9223372036854775808 := rfl

/-- The patterns of a binary exponent in digits. -/
theorem binade_eq : binade = 4503599627370496 := rfl

section Word

variable (sign : Float.Model.UnpackedFloat.Sign) (exponent : BitVec 11) (mantissa : BitVec 52)

/-- The word with these fields. -/
def word : BitVec 64 :=
  packComponents Format.binary64 sign exponent mantissa

/-- The fields of a word stand in their places. -/
theorem toNat_word :
    (word sign exponent mantissa).toNat =
      sign.toBitVec.toNat * signBit + exponent.toNat * binade + mantissa.toNat := by
  change (sign.toBitVec ++ exponent ++ mantissa).toNat = _
  rw [signBit_eq, binade_eq, BitVec.toNat_append,
    ← Nat.shiftLeft_add_eq_or_of_lt mantissa.isLt, BitVec.toNat_append,
    ← Nat.shiftLeft_add_eq_or_of_lt exponent.isLt, Nat.shiftLeft_eq, Nat.shiftLeft_eq]
  omega

/-- The sign of a word is its sign field. -/
theorem unpackSign_word :
    @unpackSign Format.binary64 (word sign exponent mantissa) = sign.toBitVec := by
  apply BitVec.eq_of_toNat_eq
  have hexponent := exponent.isLt
  have hmantissa := mantissa.isLt
  have hsign := sign.toBitVec.isLt
  unfold unpackSign
  rw [BitVec.toNat_cast, BitVec.extractLsb_toNat, toNat_word, Nat.shiftRight_eq_div_pow]
  change (_ * 2 ^ 63 + _ * 2 ^ 52 + _) / 2 ^ 63 % 2 ^ 1 = _
  omega

/-- A sign field is read as its sign. -/
theorem ofBitVec_toBitVec : Float.Model.UnpackedFloat.Sign.ofBitVec sign.toBitVec = sign := by
  cases sign <;> rfl

/-- A mantissa with its leading bit. -/
theorem toNat_one_append : (1#1 ++ mantissa).toNat = binade + mantissa.toNat := by
  rw [BitVec.toNat_append, ← Nat.shiftLeft_add_eq_or_of_lt mantissa.isLt]
  rfl

/-- The number that fields stand for. -/
def ofFields : UnpackedFloat :=
  if exponent = -1#11 then
    if mantissa = 0#52 then .infinity sign else .notANumber
  else if exponent = 0#11 then
    if h : mantissa = 0#52 then .zero sign
    else .finite sign mantissa.toNat ((exponent.toNat : ℤ) - 1075 + 1)
      (Nat.pos_of_ne_zero fun hzero => h (BitVec.eq_of_toNat_eq hzero))
  else
    .finite sign (1#1 ++ mantissa).toNat ((exponent.toNat : ℤ) - 1075)
      (toNat_one_append mantissa ▸ Nat.add_pos_left (Nat.pow_pos (by decide)) _)

/-- A word is unpacked to the number that its fields stand for. -/
theorem unpack_word :
    unpack Format.binary64 (word sign exponent mantissa) = ofFields sign exponent mantissa := by
  have hexponent : @unpackExponent Format.binary64 (word sign exponent mantissa) = exponent :=
    unpackExponent_packComponents
  have hmantissa : @unpackMantissa Format.binary64 (word sign exponent mantissa) = mantissa :=
    unpackMantissa_packComponents
  change ofFields (Float.Model.UnpackedFloat.Sign.ofBitVec
    (@unpackSign Format.binary64 (word sign exponent mantissa)))
    (@unpackExponent Format.binary64 (word sign exponent mantissa))
    (@unpackMantissa Format.binary64 (word sign exponent mantissa)) = _
  rw [unpackSign_word, ofBitVec_toBitVec, hexponent, hmantissa]

/-- What changes the sign of every number with a sign changes the sign field. -/
theorem map_ofFields {f : UnpackedFloat → UnpackedFloat}
    {sign' : Float.Model.UnpackedFloat.Sign} (hnan : f .notANumber = .notANumber)
    (hinfinity : f (.infinity sign) = .infinity sign') (hzero : f (.zero sign) = .zero sign')
    (hfinite : ∀ m e h, f (.finite sign m e h) = .finite sign' m e h) :
    f (ofFields sign exponent mantissa) = ofFields sign' exponent mantissa := by
  unfold ofFields
  by_cases hlast : exponent = -1#11
  · rw [if_pos hlast, if_pos hlast]
    by_cases hnone : mantissa = 0#52
    · rw [if_pos hnone, if_pos hnone]
      exact hinfinity
    · rw [if_neg hnone, if_neg hnone]
      exact hnan
  · rw [if_neg hlast, if_neg hlast]
    by_cases hfirst : exponent = 0#11
    · rw [if_pos hfirst, if_pos hfirst]
      by_cases hnone : mantissa = 0#52
      · rw [dif_pos hnone, dif_pos hnone]
        exact hzero
      · rw [dif_neg hnone, dif_neg hnone]
        exact hfinite _ _ _
    · rw [if_neg hfirst, if_neg hfirst]
      exact hfinite _ _ _

/-- Negating a number changes its sign field. -/
theorem neg_ofFields :
    (ofFields sign exponent mantissa).neg = ofFields (-sign) exponent mantissa :=
  map_ofFields sign exponent mantissa rfl rfl rfl fun _ _ _ => rfl

/-- The absolute value of a number has the positive sign field. -/
theorem abs_ofFields :
    (ofFields sign exponent mantissa).abs = ofFields .positive exponent mantissa :=
  map_ofFields sign exponent mantissa rfl rfl rfl fun _ _ _ => rfl

end Word

/-- Every word consists of its three fields. -/
theorem exists_word (bits : BitVec 64) :
    ∃ sign exponent mantissa, bits = word sign exponent mantissa := by
  refine ⟨if signBit ≤ bits.toNat then .negative else .positive,
    BitVec.ofNat 11 (bits.toNat / 2 ^ 52), BitVec.ofNat 52 bits.toNat, ?_⟩
  have hbits := bits.isLt
  apply BitVec.eq_of_toNat_eq
  rw [toNat_word, signBit_eq, binade_eq, BitVec.toNat_ofNat, BitVec.toNat_ofNat]
  split
  · have hbit : Float.Model.UnpackedFloat.Sign.negative.toBitVec.toNat = 1 := rfl
    rw [hbit]
    omega
  · have hbit : Float.Model.UnpackedFloat.Sign.positive.toBitVec.toNat = 0 := rfl
    rw [hbit]
    omega

/-- A finite number is packed into the fields that it stands for. -/
theorem pack_ofFields (sign : Float.Model.UnpackedFloat.Sign) {exponent : BitVec 11}
    (hfinite : exponent ≠ -1#11) (mantissa : BitVec 52) :
    pack Format.binary64 (ofFields sign exponent mantissa) = word sign exponent mantissa := by
  have hmantissa : mantissa.toNat < 2 ^ 52 := mantissa.isLt
  unfold ofFields
  rw [if_neg hfinite]
  by_cases hexponent : exponent = 0#11
  · -- Without the leading bit the exponent field is zero.
    subst hexponent
    rw [if_pos rfl]
    by_cases hzero : mantissa = 0#52
    · rw [dif_pos hzero, hzero]
      rfl
    · have hpos : mantissa.toNat ≠ 0 := fun h => hzero (BitVec.eq_of_toNat_eq h)
      have hlog : mantissa.toNat.log2 < 52 := (Nat.log2_lt hpos).2 hmantissa
      rw [dif_neg hzero]
      change (if 2 ^ 11 ≤ 1 + 1 then packedInfinity Format.binary64 sign
        else if mantissa.toNat.log2 + 1 = 53 then word sign 1#11 (BitVec.ofNat 52 mantissa.toNat)
        else word sign 0#11 (BitVec.ofNat 52 mantissa.toNat)) = _
      rw [if_neg (by decide), if_neg (by omega), BitVec.ofNat_toNat, BitVec.setWidth_eq]
  · have hlog : (1#1 ++ mantissa).toNat.log2 = 52 := by
      rw [toNat_one_append, binade_eq, Nat.log2_eq_iff (by omega)]
      omega
    have hfield : exponent.toNat ≠ 2047 := fun h => hfinite (BitVec.eq_of_toNat_eq h)
    have hbiased : ((exponent.toNat : ℤ) - 1075 + 1023 + 52).toNat = exponent.toNat := by omega
    have hless := exponent.isLt
    rw [if_neg hexponent]
    change (if 2 ^ 11 ≤ ((exponent.toNat : ℤ) - 1075 + 1023 + 52).toNat + 1 then
        packedInfinity Format.binary64 sign
      else if (1#1 ++ mantissa).toNat.log2 + 1 = 53 then
        word sign (BitVec.ofNat 11 ((exponent.toNat : ℤ) - 1075 + 1023 + 52).toNat)
          (BitVec.ofNat 52 (1#1 ++ mantissa).toNat)
      else word sign 0#11 (BitVec.ofNat 52 (1#1 ++ mantissa).toNat)) = _
    rw [hbiased, if_neg (by omega), if_pos (by omega)]
    congr 1
    · simp
    · apply BitVec.eq_of_toNat_eq
      rw [BitVec.toNat_ofNat, toNat_one_append, binade_eq]
      omega

/-- Numbers with the same bits are the same. -/
theorem eq_of_toBits_eq {x y : Float} (h : x.toBits = y.toBits) : x = y := by
  obtain ⟨⟨bits, hvalid⟩⟩ := x
  obtain ⟨⟨bits', hvalid'⟩⟩ := y
  change bits = bits' at h
  subst h
  rfl

/-- The sign field of a number with or without a minus sign. -/
def signField : Bool → Float.Model.UnpackedFloat.Sign
  | true => .negative
  | false => .positive

/-- A number with an exponent field that is not all ones is finite. -/
theorem ofFloat_of_word {x : Float} {negative : Bool} {exponent : BitVec 11}
    (hfinite : exponent ≠ -1#11) {mantissa : BitVec 52}
    (hword : x.toBits.toBitVec = word (signField negative) exponent mantissa) :
    ofFloat x =
      .finite negative (unitsOfPattern (exponent.toNat * binade + mantissa.toNat)) := by
  have hbits : x.toBits.toNat = _ := (congrArg BitVec.toNat hword).trans (toNat_word _ _ _)
  have hexponent := exponent.isLt
  have hfield : exponent.toNat ≠ 2047 := fun h => hfinite (BitVec.eq_of_toNat_eq h)
  have hmantissa := mantissa.isLt
  have hsign : decide (signBit ≤ x.toBits.toNat) = negative := by
    rw [hbits, binade_eq, signBit_eq]
    cases negative with
    | false =>
      have hbit : (signField false).toBitVec.toNat = 0 := rfl
      rw [hbit, decide_eq_false_iff_not]
      omega
    | true =>
      have hbit : (signField true).toBitVec.toNat = 1 := rfl
      rw [hbit, decide_eq_true_eq]
      omega
  have hpattern : x.toBits.toNat % signBit = exponent.toNat * binade + mantissa.toNat := by
    rw [hbits, binade_eq, signBit_eq]
    omega
  have hless : exponent.toNat * binade + mantissa.toNat < infinityPattern := by
    rw [binade_eq]
    change _ < 2047 * 2 ^ 52
    omega
  unfold ofFloat
  dsimp only
  rw [hpattern, hsign, if_pos hless]

/-- A finite number consists of its sign field and of other fields, and with the positive sign
field it is its absolute value. -/
theorem exists_word_of_finite {x : Float} {negative : Bool} {units : ℕ}
    (h : ofFloat x = .finite negative units) :
    ∃ exponent mantissa, exponent ≠ -1#11 ∧
      x.toBits.toBitVec = word (signField negative) exponent mantissa ∧
      x.abs.toBits.toBitVec = word .positive exponent mantissa := by
  obtain ⟨sign, exponent, mantissa, hword⟩ := exists_word x.toBits.toBitVec
  have hfinite : exponent ≠ -1#11 := by
    rintro rfl
    have hbits : x.toBits.toNat = _ := (congrArg BitVec.toNat hword).trans (toNat_word _ _ _)
    have hmantissa : mantissa.toNat < 2 ^ 52 := mantissa.isLt
    have hlarge : ¬ x.toBits.toNat % signBit < infinityPattern := by
      rw [hbits]
      change ¬ (_ * 2 ^ 63 + 2047 * 2 ^ 52 + _) % 2 ^ 63 < 2047 * 2 ^ 52
      omega
    unfold ofFloat at h
    dsimp only at h
    rw [if_neg hlarge] at h
    split at h <;> cases h
  obtain ⟨written, rfl⟩ : ∃ written, signField written = sign := by
    cases sign
    · exact ⟨true, rfl⟩
    · exact ⟨false, rfl⟩
  have hsame := h.symm.trans (ofFloat_of_word hfinite hword)
  cases hsame
  refine ⟨exponent, mantissa, hfinite, hword, ?_⟩
  change pack Format.binary64 (unpack Format.binary64 x.toBits.toBitVec).abs = _
  rw [hword, unpack_word, abs_ofFields, pack_ofFields _ hfinite]

/-- The absolute value of a finite number has no minus sign and as many units. -/
theorem ofFloat_abs {x : Float} {negative : Bool} {units : ℕ}
    (h : ofFloat x = .finite negative units) : ofFloat x.abs = .finite false units := by
  obtain ⟨exponent, mantissa, hfinite, hword, habs⟩ := exists_word_of_finite h
  have hsame := h.symm.trans (ofFloat_of_word hfinite hword)
  cases hsame
  exact ofFloat_of_word hfinite habs

/-- A finite number without a minus sign is its absolute value. -/
theorem abs_of_finite {x : Float} {units : ℕ} (h : ofFloat x = .finite false units) :
    x.abs = x := by
  obtain ⟨exponent, mantissa, _, hword, habs⟩ := exists_word_of_finite h
  exact eq_of_toBits_eq (UInt64.toBitVec_inj.1 (habs.trans hword.symm))

/-- A finite number is negated to the number that has the other sign field and the same other
fields. -/
theorem neg_of_word {x y : Float} {sign : Float.Model.UnpackedFloat.Sign} {exponent : BitVec 11}
    (hfinite : exponent ≠ -1#11) {mantissa : BitVec 52}
    (hx : x.toBits.toBitVec = word sign exponent mantissa)
    (hy : y.toBits.toBitVec = word (-sign) exponent mantissa) : -x = y := by
  apply eq_of_toBits_eq
  apply UInt64.toBitVec_inj.1
  change pack Format.binary64 (unpack Format.binary64 x.toBits.toBitVec).neg = _
  rw [hx, unpack_word, neg_ofFields, pack_ofFields _ hfinite, hy]

/-- A finite number with a minus sign is what its absolute value is negated. -/
theorem neg_abs_of_finite {x : Float} {units : ℕ} (h : ofFloat x = .finite true units) :
    -x.abs = x := by
  obtain ⟨exponent, mantissa, hfinite, hword, habs⟩ := exists_word_of_finite h
  exact neg_of_word hfinite habs hword

/-- A finite number with a minus sign is negated to its absolute value. -/
theorem neg_of_finite {x : Float} {units : ℕ} (h : ofFloat x = .finite true units) :
    -x = x.abs := by
  obtain ⟨exponent, mantissa, hfinite, hword, habs⟩ := exists_word_of_finite h
  exact neg_of_word hfinite hword habs

/-- A finite pattern is a number without a minus sign and with its own units. -/
theorem ofFloat_ofBits {pattern : ℕ} (h : pattern < infinityPattern) :
    ofFloat (Float.ofBits pattern.toUInt64) = .finite false (unitsOfPattern pattern) := by
  have hless : pattern < 2047 * 2 ^ 52 := h
  have hbits : pattern.toUInt64.toBitVec.toNat = pattern := by
    change pattern % 2 ^ 64 = pattern
    omega
  obtain ⟨sign, exponent, mantissa, hword⟩ := exists_word pattern.toUInt64.toBitVec
  have hnat : pattern =
      sign.toBitVec.toNat * 2 ^ 63 + exponent.toNat * 2 ^ 52 + mantissa.toNat := by
    rw [← hbits, hword]
    exact toNat_word sign exponent mantissa
  have hmantissa : mantissa.toNat < 2 ^ 52 := mantissa.isLt
  have hfinite : exponent ≠ -1#11 := by
    rintro rfl
    have hfield : (-1#11).toNat = 2047 := rfl
    omega
  have hpositive : sign = signField false := by
    cases sign with
    | positive => rfl
    | negative =>
      have hbit : Float.Model.UnpackedFloat.Sign.negative.toBitVec.toNat = 1 := rfl
      omega
  have hpacked : (Float.ofBits pattern.toUInt64).toBits.toBitVec =
      word (signField false) exponent mantissa := by
    change pack Format.binary64 (unpack Format.binary64 pattern.toUInt64.toBitVec) = _
    rw [hword, unpack_word, pack_ofFields _ hfinite, hpositive]
  have hpattern : exponent.toNat * binade + mantissa.toNat = pattern := by
    have hbit : (signField false).toBitVec.toNat = 0 := rfl
    rw [hpositive, hbit, Nat.zero_mul, Nat.zero_add] at hnat
    exact hnat.symm
  rw [ofFloat_of_word hfinite hpacked, hpattern]

/-- Zero is finite and has no units. -/
theorem ofFloat_zero : ofFloat 0.0 = .finite false 0 :=
  rfl

end Calculator.Number.Binary64
