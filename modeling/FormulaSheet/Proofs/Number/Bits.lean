import Mathlib

/-!
# The bits of a number

A number is its bits, so the number made from them is the number itself. Conversely bits are kept by
the number made from them, unless they are bits of what is not a number: of these only one pattern
is kept. An exponent field that is not the highest one makes sure of that.

## Main results

* `Binary64.ofBits_toBits`: a number is made from its bits.
* `Binary64.toBits_ofBits`: the bits of a finite number are kept.
* `Binary64.toBits_of_isNaN`: one number is not a number.
-/

namespace FormulaSheet.Binary64

open Float.Model UnpackedFloat

/-- Sixty-four bits are a sign, an exponent and a mantissa. -/
private theorem packComponents_unpack (v : BitVec Format.binary64.numBits) :
    packComponents Format.binary64 (Sign.ofBitVec (unpackSign v)) (unpackExponent v)
      (unpackMantissa v) = v := by
  have hsign : (Sign.ofBitVec (unpackSign v)).toBitVec = unpackSign v := by
    rcases BitVec.eq_zero_or_eq_one (unpackSign v) with h | h <;> rw [h] <;> rfl
  rw [packComponents, hsign]
  simp only [unpackSign, unpackExponent, unpackMantissa, BitVec.extractLsb]
  ext i hi
  grind

/-- The significand of a normal number has the leading bit in front. -/
private theorem toNat_one_append (m : BitVec Format.binary64.mantissaBitsWithoutImplicit) :
    (1#1 ++ m).toNat = 2 ^ 52 + m.toNat := by
  rw [BitVec.toNat_append, ← Nat.shiftLeft_add_eq_or_of_lt m.isLt]
  rfl

private theorem log2_one_append (m : BitVec Format.binary64.mantissaBitsWithoutImplicit) :
    (1#1 ++ m).toNat.log2 = 52 := by
  have hm : m.toNat < 2 ^ 52 := m.isLt
  rw [toNat_one_append, Nat.log2_eq_iff (by omega)]
  omega

/-- The significand of a subnormal number has no leading bit. -/
private theorem log2_ne_of_ne_zero {m : BitVec Format.binary64.mantissaBitsWithoutImplicit}
    (h : m ≠ 0#_) : m.toNat.log2 + 1 ≠ Format.binary64.mantissaBits := by
  have hne : m.toNat ≠ 0 := fun hzero => h (BitVec.eq_of_toNat_eq hzero)
  have hless : m.toNat.log2 < 52 := (Nat.log2_lt hne).2 m.isLt
  have hbits : Format.binary64.mantissaBits = 53 := rfl
  omega

/-- The fields of a normal number are put together again. -/
private theorem pack_normal {v : BitVec Format.binary64.numBits} (hhighest : unpackExponent v ≠ -1#_)
    (hlowest : unpackExponent v ≠ 0#_) :
    UnpackedFloat.pack Format.binary64 (UnpackedFloat.unpack Format.binary64 v) = v := by
  have hlt : (unpackExponent v).toNat < 2 ^ 11 := (unpackExponent v).isLt
  have hne : (unpackExponent v).toNat ≠ 2047 := fun h => hhighest (BitVec.eq_of_toNat_eq h)
  have hpos : (unpackExponent v).toNat ≠ 0 := fun h => hlowest (BitVec.eq_of_toNat_eq h)
  have hbias : Format.binary64.exponentBias = 1023 := rfl
  have hfield : (((unpackExponent v).toNat : Int) - (((1023 : Nat) : Int) + (52 : Nat)) +
      (1023 : Nat) + (52 : Nat)).toNat = (unpackExponent v).toNat := by
    omega
  have hfraction : BitVec.ofNat Format.binary64.mantissaBitsWithoutImplicit
      (1#1 ++ unpackMantissa v).toNat = unpackMantissa v := by
    apply BitVec.eq_of_toNat_eq
    have hm : (unpackMantissa v).toNat < 2 ^ 52 := (unpackMantissa v).isLt
    rw [toNat_one_append, BitVec.toNat_ofNat, Nat.add_mod_left]
    exact Nat.mod_eq_of_lt hm
  have hlog : (1#1 ++ unpackMantissa v).toNat.log2 + 1 = Format.binary64.mantissaBits := by
    rw [log2_one_append]
    rfl
  rw [UnpackedFloat.unpack]
  simp only [hhighest, hlowest, if_false]
  rw [UnpackedFloat.pack]
  simp only [hbias, hfield]
  rw [if_neg (by omega), if_pos hlog, BitVec.ofNat_toNat, BitVec.setWidth_eq, hfraction,
    packComponents_unpack]

/-- Packing undoes unpacking. -/
private theorem pack_unpack {v : BitVec Format.binary64.numBits} (hv : Format.binary64.Valid v) :
    UnpackedFloat.pack Format.binary64 (UnpackedFloat.unpack Format.binary64 v) = v := by
  have hcomponents := packComponents_unpack v
  by_cases hhighest : unpackExponent v = -1#_
  · rw [UnpackedFloat.unpack]
    dsimp only
    rw [if_pos hhighest]
    by_cases hzero : unpackMantissa v = 0#_
    · rw [if_pos hzero]
      rw [hhighest, hzero] at hcomponents
      exact hcomponents
    · rw [if_neg hzero]
      exact (hv.eq_packedNaN hhighest hzero).symm
  · by_cases hlowest : unpackExponent v = 0#_
    · rw [UnpackedFloat.unpack]
      dsimp only
      rw [if_neg hhighest, if_pos hlowest]
      rw [hlowest] at hcomponents
      by_cases hzero : unpackMantissa v = 0#_
      · rw [dif_pos hzero]
        rw [hzero] at hcomponents
        exact hcomponents
      · rw [dif_neg hzero, UnpackedFloat.pack.eq_def]
        dsimp only
        rw [hlowest, if_neg (by decide), if_neg (log2_ne_of_ne_zero hzero), BitVec.ofNat_toNat,
          BitVec.setWidth_eq]
        exact hcomponents
    · exact pack_normal hhighest hlowest

/-- A number is made from its bits. -/
theorem ofBits_toBits (x : Float) : Float.ofBits x.toBits = x := by
  obtain ⟨bits, hvalid⟩ := x
  have hmodel : Float.Model.ofBits bits = ⟨bits, hvalid⟩ := by
    rw [Float.Model.ofBits, Float.Model.pack, Float.Model.mk.injEq, pack_unpack hvalid]
  exact congrArg Float.ofModel hmodel

/-- The bits of a finite number are kept. -/
theorem toBits_ofBits {b : UInt64} (h : b.toNat / 2 ^ 52 % 2048 ≠ 2047) :
    (Float.ofBits b).toBits = b := by
  have hfield : (@unpackExponent Format.binary64 b.toBitVec).toNat =
      b.toNat / 2 ^ 52 % 2048 := by
    simp [unpackExponent, Nat.shiftRight_eq_div_pow]
  have hvalid : Format.binary64.Valid b.toBitVec := by
    refine ⟨fun hhighest => absurd ?_ h⟩
    rw [← hfield, hhighest]
    rfl
  exact congrArg UInt64.ofBitVec (pack_unpack hvalid)

/-- One number is not a number. -/
theorem toBits_of_isNaN {x : Float} (hexponent : x.toBits.toNat / 2 ^ 52 % 2048 = 2047)
    (hmantissa : x.toBits.toNat % 2 ^ 52 ≠ 0) : x.toBits = 0x7FF8000000000000 := by
  obtain ⟨⟨bits, hvalid⟩⟩ := x
  change bits.toNat / 2 ^ 52 % 2048 = 2047 at hexponent
  change bits.toNat % 2 ^ 52 ≠ 0 at hmantissa
  have hhighest : @unpackExponent Format.binary64 bits.toBitVec = -1#_ := by
    apply BitVec.eq_of_toNat_eq
    simpa [unpackExponent, Nat.shiftRight_eq_div_pow] using hexponent
  have hnonzero : @unpackMantissa Format.binary64 bits.toBitVec ≠ 0#_ := by
    intro hzero
    exact hmantissa (by simpa [unpackMantissa] using congrArg BitVec.toNat hzero)
  exact congrArg UInt64.ofBitVec (hvalid.eq_packedNaN hhighest hnonzero)

end FormulaSheet.Binary64
