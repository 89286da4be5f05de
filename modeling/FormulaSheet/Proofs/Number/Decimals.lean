import FormulaSheet.Proofs.Number.Natural
import Mathlib.Data.List.DropRight

/-!
# Decimal values

A decimal value is a rational number, and the number read from it is the one nearest to that rational
number: the powers of ten that are not computed would change nothing. The text of a decimal value is
read as a decimal value of the same rational number, hence as the same number.

## Main definitions

* `Decimal.rational`: the rational number of a decimal value.

## Main results

* `Decimal.toFloat_eq_round`: reading rounds the rational number.
* `Literal.unsigned?_text`: the text of a decimal value is read as its number.
-/

namespace FormulaSheet

namespace Decimal

/-- The rational number of a decimal value. -/
def rational (d : Decimal) : ℚ :=
  d.significand * 10 ^ d.exponent

/-! ### Reading a decimal value -/

theorem ten_zpow_bounds {k : Int} (hk : 0 ≤ k) : (2 : ℚ) ^ (3 * k) ≤ 10 ^ k := by
  rw [zpow_mul]
  exact zpow_le_zpow_left₀ hk (by norm_num) (by norm_num)

/-- What is below the smallest power of ten that is computed is nearest to zero. -/
theorem rational_lt {d : Decimal}
    (h : d.exponent < -((exponentLimit + d.significand.log2 + 1 : Nat) : Int)) :
    d.rational < 2 ^ (-1075 : Int) := by
  have hlimit : exponentLimit = 400 := rfl
  have hsignificand : (d.significand : ℚ) < 10 ^ ((d.significand.log2 : Int) + 1) := by
    calc (d.significand : ℚ) < 2 ^ ((d.significand.log2 : Int) + 1) := by
          exact_mod_cast Nat.lt_log2_self
      _ ≤ 10 ^ ((d.significand.log2 : Int) + 1) :=
        zpow_le_zpow_left₀ (by omega) (by norm_num) (by norm_num)
  have hpower : (10 : ℚ) ^ (-(401 : Int)) ≤ 2 ^ (-(3 * 401 : Int)) := by
    rw [zpow_neg, zpow_neg]
    exact inv_anti₀ (by positivity) (ten_zpow_bounds (by omega))
  calc d.rational < 10 ^ ((d.significand.log2 : Int) + 1) * 10 ^ d.exponent :=
        mul_lt_mul_of_pos_right hsignificand (by positivity)
    _ = 10 ^ ((d.significand.log2 : Int) + 1 + d.exponent) := (zpow_add₀ (by norm_num) _ _).symm
    _ ≤ 10 ^ (-(401 : Int)) := zpow_le_zpow_right₀ (by norm_num) (by omega)
    _ ≤ 2 ^ (-(3 * 401 : Int)) := hpower
    _ ≤ 2 ^ (-1075 : Int) := zpow_le_zpow_right₀ (by norm_num) (by norm_num)

/-- What has a larger power of ten than those that are computed is beyond the finite numbers. -/
theorem le_rational {d : Decimal} (hpos : 0 < d.significand) (h : exponentLimit < d.exponent) :
    2 ^ (1024 : Int) ≤ d.rational := by
  have hlimit : exponentLimit = 400 := rfl
  have hone : (1 : ℚ) ≤ d.significand := by exact_mod_cast hpos
  calc (2 : ℚ) ^ (1024 : Int) ≤ 2 ^ (3 * d.exponent) :=
        zpow_le_zpow_right₀ (by norm_num) (by omega)
    _ ≤ 10 ^ d.exponent := ten_zpow_bounds (by omega)
    _ ≤ d.rational := le_mul_of_one_le_left (by positivity) hone

/-- The number of a decimal value is the one nearest to its rational number. -/
theorem toFloat_eq_round (d : Decimal) (negative : Bool) :
    d.toFloat negative = Binary64.round negative d.rational := by
  rw [toFloat]
  split_ifs with hzero hlarge
  · have hmagnitude : Binary64.magnitude d.rational = 0 := by
      rcases hzero with hzero | hsmall
      · rw [rational, hzero, Nat.cast_zero, zero_mul, Binary64.magnitude_zero]
      · exact Binary64.magnitude_of_lt (by rw [rational]; positivity) (rational_lt hsmall)
    rw [Binary64.round, hmagnitude]
  · have hpos : 0 < d.significand := by omega
    rw [Binary64.round, Binary64.magnitude_of_le (le_rational hpos hlarge), Binary64.infinity]
  · have hpower := zpow_eq_power_div 10 d.exponent
    rw [Nat.cast_ofNat] at hpower
    rw [Binary64.nearest_eq_round _ _ (power_pos (by decide) _), rational, hpower, Nat.cast_mul,
      mul_div_assoc]

/-- Decimal values of the same rational number are read as the same number. -/
theorem toFloat_congr {d e : Decimal} (h : d.rational = e.rational) (negative : Bool) :
    d.toFloat negative = e.toFloat negative := by
  rw [toFloat_eq_round, toFloat_eq_round, h]

/-! ### Digits after the point -/

theorem isDigit_of_mem_fractionDigits {n places : Nat} {c : Char}
    (hc : c ∈ fractionDigits n places) : c.isDigit = true := by
  rw [fractionDigits] at hc
  split_ifs at hc
  · cases hc
  · rcases List.mem_append.1 hc with hc | hc
    · rw [List.eq_of_mem_replicate hc]
      rfl
    · exact Nat.isDigit_of_mem_toDigits (by decide) (by decide) hc

theorem length_fractionDigits (n places : Nat) : (fractionDigits n places).length = places := by
  rw [fractionDigits]
  split_ifs with hplaces
  · exact hplaces.symm
  · have hpower : power 10 (places : Int) = 10 ^ places := rfl
    have hle : (Nat.toDigits 10 (n % power 10 places)).length ≤ places :=
      (Nat.length_toDigits_le_iff (by decide) (by omega)).2
        (hpower ▸ Nat.mod_lt n (Nat.pow_pos (by decide)))
    rw [List.length_append, List.length_replicate]
    omega

/-- The digits after the point are those of the remainder. -/
theorem ofDigitChars_fractionDigits (n places : Nat) :
    Nat.ofDigitChars 10 (fractionDigits n places) 0 = n % 10 ^ places := by
  have hpower : power 10 (places : Int) = 10 ^ places := rfl
  rw [fractionDigits]
  split_ifs with hplaces
  · rw [hplaces, Nat.pow_zero, Nat.mod_one]
    rfl
  · rw [Nat.ofDigitChars_append, Nat.ofDigitChars_replicate_zero, Nat.mul_zero,
      Nat.ofDigitChars_ten_toDigits, hpower]

/-- Digits are those before the zeros at the end and these zeros. -/
theorem exists_dropZeros (ds : List Char) : ∃ k, ds = dropZeros ds ++ List.replicate k '0' := by
  have hzeros : ds.rtakeWhile (· = '0') =
      List.replicate (ds.rtakeWhile (· = '0')).length '0' := by
    refine List.eq_replicate_iff.2 ⟨rfl, fun c hc => ?_⟩
    simpa using List.mem_rtakeWhile_imp hc
  refine ⟨(ds.rtakeWhile (· = '0')).length, ?_⟩
  rw [← hzeros]
  exact List.rdropWhile_append_rtakeWhile.symm

end Decimal

namespace Decimal

/-! ### The text of a decimal value -/

/-- The characters of a whole part and the digits after the point. -/
theorem toList_joinFraction (whole : Nat) (fraction : List Char) :
    (joinFraction whole fraction).toList =
      Nat.toDigits 10 whole ++ if fraction = [] then [] else '.' :: fraction := by
  rw [joinFraction]
  split_ifs
  · rw [Nat.toList_repr, List.append_nil]
  · simp [Nat.toList_repr]

/-- The text of a decimal value is a whole part and digits after the point, which together denote
its rational number. -/
theorem exists_text_eq_joinFraction (d : Decimal) : ∃ whole fraction,
    d.text = joinFraction whole fraction ∧ (∀ c ∈ fraction, c.isDigit = true) ∧
      d.rational * 10 ^ fraction.length =
        10 ^ fraction.length * whole + Nat.ofDigitChars 10 fraction 0 := by
  rw [text]
  split_ifs with hexponent
  · obtain ⟨k, hk⟩ := Int.eq_ofNat_of_zero_le hexponent
    refine ⟨_, [], rfl, by simp, ?_⟩
    simp [rational, hk, power]
  · obtain ⟨places, hplaces⟩ : ∃ places : Nat, d.exponent = -(places : Int) :=
      ⟨(-d.exponent).toNat, by omega⟩
    obtain ⟨k, hk⟩ := exists_dropZeros (fractionDigits d.significand places)
    have htext : (-d.exponent).toNat = places := by
      rw [hplaces, Int.neg_neg, Int.toNat_natCast]
    refine ⟨d.significand / 10 ^ places, dropZeros (fractionDigits d.significand places), ?_, ?_, ?_⟩
    · rw [htext]
      rfl
    · intro c hc
      have hmem : c ∈ fractionDigits d.significand places := by
        rw [hk]
        exact List.mem_append_left _ hc
      exact isDigit_of_mem_fractionDigits hmem
    · have hlength := length_fractionDigits d.significand places
      have hvalue := ofDigitChars_fractionDigits d.significand places
      rw [hk, List.length_append, List.length_replicate] at hlength
      rw [hk, Nat.ofDigitChars_append, Nat.ofDigitChars_replicate_zero] at hvalue
      generalize dropZeros (fractionDigits d.significand places) = digits at hlength hvalue ⊢
      subst hlength
      have hsum : d.significand = 10 ^ k * (10 ^ digits.length *
          (d.significand / 10 ^ (digits.length + k)) + Nat.ofDigitChars 10 digits 0) := by
        rw [Nat.mul_add, hvalue, ← Nat.mul_assoc, ← Nat.pow_add, Nat.add_comm k, Nat.div_add_mod]
      have hsum' : (d.significand : ℚ) = 10 ^ k * (10 ^ digits.length *
          ((d.significand / 10 ^ (digits.length + k) : ℕ) : ℚ) +
            Nat.ofDigitChars 10 digits 0) := by
        exact_mod_cast hsum
      rw [rational, hplaces, zpow_neg, zpow_natCast, pow_add]
      conv_lhs => rw [hsum']
      field_simp

end Decimal

namespace Literal

/-! ### Reading the text of a decimal value -/

/-- A whole part and digits after the point are a decimal literal. -/
theorem decimal?_joinFraction (whole : Nat) {fraction : List Char}
    (hfraction : ∀ c ∈ fraction, c.isDigit = true) :
    decimal? (Decimal.joinFraction whole fraction).toList =
      some ⟨Nat.ofDigitChars 10 (Nat.toDigits 10 whole ++ fraction) 0,
        -(fraction.length : Int)⟩ := by
  have hwhole : ∀ c ∈ Nat.toDigits 10 whole, c.isDigit = true := fun c hc =>
    Nat.isDigit_of_mem_toDigits (by decide) (by decide) hc
  have hne : Nat.toDigits 10 whole ≠ [] := Nat.toDigits_ne_nil
  rw [Decimal.toList_joinFraction]
  split_ifs with hnil
  · subst hnil
    rw [List.append_nil, decimal?_digits hwhole hne]
    simp
  · have htake : (Nat.toDigits 10 whole ++ '.' :: fraction).takeWhile Char.isDigit =
        Nat.toDigits 10 whole := by
      rw [List.takeWhile_append_of_pos hwhole, List.takeWhile_cons_of_neg (by decide),
        List.append_nil]
    have hdrop : (Nat.toDigits 10 whole ++ '.' :: fraction).dropWhile Char.isDigit =
        '.' :: fraction := by
      rw [List.dropWhile_append_of_pos hwhole, List.dropWhile_cons_of_neg (by decide)]
    have hall : Literal.fraction ('.' :: fraction) = (fraction, []) := by
      rw [Literal.fraction, List.takeWhile_eq_self_iff.2 hfraction,
        List.dropWhile_eq_nil_iff.2 hfraction]
    simp only [decimal?, htake, hdrop, hall, List.append_eq_nil_iff, hne, false_and, if_false]

/-- The text of a decimal value is read as a decimal value of the same rational number. -/
theorem exists_decimal?_text (d : Decimal) :
    ∃ e : Decimal, decimal? d.text.toList = some e ∧ e.rational = d.rational := by
  obtain ⟨whole, fraction, htext, hfraction, hrational⟩ := d.exists_text_eq_joinFraction
  refine ⟨_, htext ▸ decimal?_joinFraction whole hfraction, ?_⟩
  have hpower : (10 : ℚ) ^ fraction.length ≠ 0 := by positivity
  rw [Decimal.rational, zpow_neg, zpow_natCast, ← div_eq_mul_inv, div_eq_iff hpower, hrational,
    Nat.ofDigitChars_append, Nat.ofDigitChars_ten_toDigits, Nat.ofDigitChars_eq_ofDigitChars_zero]
  push_cast
  rfl

/-- The text of a decimal value starts with a digit. -/
theorem exists_text_eq_cons (d : Decimal) :
    ∃ c cs, d.text.toList = c :: cs ∧ c.isDigit = true := by
  obtain ⟨whole, fraction, htext, -⟩ := d.exists_text_eq_joinFraction
  obtain ⟨c, cs, hdigits⟩ := List.exists_cons_of_ne_nil (Nat.toDigits_ne_nil (b := 10) (n := whole))
  have hc : c ∈ Nat.toDigits 10 whole := hdigits ▸ List.mem_cons_self
  rw [htext, Decimal.toList_joinFraction, hdigits]
  exact ⟨c, _, rfl, Nat.isDigit_of_mem_toDigits (by decide) (by decide) hc⟩

/-- The text of a decimal value is read as its number. -/
theorem unsigned?_text (d : Decimal) (negative : Bool) :
    unsigned? negative d.text.toList = some (d.toFloat negative) := by
  obtain ⟨c, cs, htext, hc⟩ := exists_text_eq_cons d
  obtain ⟨e, hdecimal, hrational⟩ := exists_decimal?_text d
  rw [htext] at hdecimal
  rw [htext, unsigned?_cons hc, hdecimal, Option.map_some, Decimal.toFloat_congr hrational]

end Literal

end FormulaSheet
