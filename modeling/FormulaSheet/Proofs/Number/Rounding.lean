import FormulaSheet.Proofs.Number.Bits
import FormulaSheet.Proofs.Number.Exact
import Mathlib.Data.Int.Log

/-!
# Rounding

Numbers are read from fractions of natural numbers. What is read depends only on the rational number
that a fraction is: rounding is stated here as a function of that rational number, and the
computation with natural numbers agrees with it. A finite number is then the one nearest to its own
rational value, and what is too large or too small for the exponents becomes infinity or zero.

## Main definitions

* `roundEven`: the natural number nearest to a rational one, ties to even.
* `Binary64.magnitude`: the bits of the magnitude nearest to a rational number.
* `Binary64.round`: the number nearest to a rational number with a sign.

## Main results

* `Binary64.nearest_eq_round`: the number nearest to a fraction is that of its rational value.
* `Binary64.round_of_ofFloat`: a finite number is nearest to its own magnitude.
-/

namespace FormulaSheet

/-- The natural number nearest to `q`; halfway it is the even one. -/
def roundEven (q : ℚ) : Nat :=
  if q - ⌊q⌋₊ < 1 / 2 ∨ (q - ⌊q⌋₊ = 1 / 2 ∧ ⌊q⌋₊ % 2 = 0) then ⌊q⌋₊ else ⌊q⌋₊ + 1

theorem roundEven_natCast (n : Nat) : roundEven n = n := by
  simp [roundEven]

theorem roundEven_eq_zero {q : ℚ} (hq : q < 1 / 2) : roundEven q = 0 := by
  have hfloor : ⌊q⌋₊ = 0 := Nat.floor_eq_zero.2 (by linarith)
  rw [roundEven, hfloor, Nat.cast_zero, sub_zero, if_pos (Or.inl hq)]

theorem floor_le_roundEven (q : ℚ) : ⌊q⌋₊ ≤ roundEven q := by
  rw [roundEven]
  split_ifs
  · exact Nat.le_refl _
  · exact Nat.le_succ _

theorem roundEven_le_floor_add_one (q : ℚ) : roundEven q ≤ ⌊q⌋₊ + 1 := by
  rw [roundEven]
  split_ifs
  · exact Nat.le_succ _
  · exact Nat.le_refl _

/-- Rounding is off by half a unit at most. -/
theorem abs_roundEven_sub_le {q : ℚ} (hq : 0 ≤ q) : |(roundEven q : ℚ) - q| ≤ 1 / 2 := by
  have hlow : (⌊q⌋₊ : ℚ) ≤ q := Nat.floor_le hq
  have hhigh : q < ⌊q⌋₊ + 1 := Nat.lt_floor_add_one q
  rw [roundEven, abs_le]
  split_ifs with hhalf
  · have hrest : q - ⌊q⌋₊ ≤ 1 / 2 := by
      rcases hhalf with hbelow | ⟨htie, -⟩
      · exact hbelow.le
      · exact htie.le
    constructor <;> linarith
  · have hrest : 1 / 2 ≤ q - ⌊q⌋₊ := not_lt.1 fun hbelow => hhalf (Or.inl hbelow)
    push_cast
    constructor <;> linarith

/-- Dividing and rounding is rounding the rational quotient. -/
theorem divRoundEven_eq_roundEven (num : Nat) {den : Nat} (hden : 0 < den) :
    divRoundEven num den = roundEven ((num : ℚ) / den) := by
  have hpos : (0 : ℚ) < den := by exact_mod_cast hden
  have hfloor : ⌊(num : ℚ) / den⌋₊ = num / den := Nat.floor_div_eq_div num den
  have hrest : (num : ℚ) / den - ((num / den : ℕ) : ℚ) = ((num % den : ℕ) : ℚ) / den := by
    have hsum : (num : ℚ) = den * ((num / den : ℕ) : ℚ) + ((num % den : ℕ) : ℚ) := by
      exact_mod_cast (Nat.div_add_mod num den).symm
    rw [eq_div_iff hpos.ne', sub_mul, div_mul_cancel₀ _ hpos.ne']
    linarith
  have hbelow : ((num % den : ℕ) : ℚ) / den < 1 / 2 ↔ 2 * (num % den) < den := by
    rw [div_lt_iff₀ hpos, ← Nat.cast_lt (α := ℚ)]
    push_cast
    constructor <;> intro h <;> linarith
  have hhalf : ((num % den : ℕ) : ℚ) / den = 1 / 2 ↔ 2 * (num % den) = den := by
    rw [div_eq_iff hpos.ne', ← Nat.cast_inj (R := ℚ)]
    push_cast
    constructor <;> intro h <;> linarith
  simp only [divRoundEven, roundEven, hfloor, hrest, hbelow, hhalf]

/-- A fraction scaled by a power is the scaled rational number. -/
theorem scaled_fraction (num den base : Nat) (k : Int) :
    ((num * power base k : ℕ) : ℚ) / ((den * power base (-k) : ℕ) : ℚ) =
      (num : ℚ) / den * (base : ℚ) ^ k := by
  rw [zpow_eq_power_div, Nat.cast_mul, Nat.cast_mul, mul_div_mul_comm]

/-! ### Logarithms -/

theorem zpow_le_iff_le_log {q : ℚ} (hq : 0 < q) (k : Int) : 2 ^ k ≤ q ↔ k ≤ Int.log 2 q := by
  simpa using Int.zpow_le_iff_le_log (b := 2) (x := k) (by decide) hq

theorem lt_zpow_iff_log_lt {q : ℚ} (hq : 0 < q) (k : Int) : q < 2 ^ k ↔ Int.log 2 q < k := by
  simpa using Int.lt_zpow_iff_log_lt (b := 2) (x := k) (by decide) hq

/-- The powers of two next to a natural number, with integer exponents. -/
theorem zpow_log2_bounds {n : Nat} (hn : 0 < n) :
    (2 : ℚ) ^ (n.log2 : Int) ≤ n ∧ (n : ℚ) < 2 ^ ((n.log2 : Int) + 1) := by
  constructor
  · exact_mod_cast Nat.log2_self_le hn.ne'
  · exact_mod_cast Nat.lt_log2_self

namespace Binary64

/-- The bits of the magnitude nearest to `q`, a tie going to the even significand. -/
def magnitude (q : ℚ) : Nat :=
  if q = 0 then 0
  else
    let e : Int := max (Int.log 2 q - 52) (-1074)
    min ((e + 1074).toNat * exponentUnit + roundEven (q / 2 ^ e)) infinityBits

/-- The number nearest to `± q`. -/
def round (negative : Bool) (q : ℚ) : Float :=
  signed negative (magnitude q)

/-! ### The computation with natural numbers -/

private theorem le_scaled_iff (num : Nat) {den : Nat} (hden : 0 < den) (k : Int) :
    den * power 2 k ≤ num * power 2 (-k) ↔ (2 : ℚ) ^ k ≤ (num : ℚ) / den := by
  have hpower : (0 : ℚ) < power 2 (-k) := by exact_mod_cast power_pos (by decide) (-k)
  have hden' : (0 : ℚ) < den := by exact_mod_cast hden
  have htwo := zpow_eq_power_div 2 k
  rw [Nat.cast_ofNat] at htwo
  rw [htwo, div_le_div_iff₀ hpower hden', ← Nat.cast_le (α := ℚ)]
  push_cast
  rw [mul_comm (den : ℚ)]

/-- The position of the leading bit is the logarithm of the rational number. -/
theorem floorLog2_eq_log {num den : Nat} (hnum : 0 < num) (hden : 0 < den) :
    floorLog2 num den = Int.log 2 ((num : ℚ) / den) := by
  have hnum' : (0 : ℚ) < num := by exact_mod_cast hnum
  have hden' : (0 : ℚ) < den := by exact_mod_cast hden
  have hq : 0 < (num : ℚ) / den := div_pos hnum' hden'
  obtain ⟨hnumLow, hnumHigh⟩ := zpow_log2_bounds hnum
  obtain ⟨hdenLow, hdenHigh⟩ := zpow_log2_bounds hden
  have hpow (k l : Int) : (2 : ℚ) ^ (k - l) * 2 ^ l = 2 ^ k := by
    rw [← zpow_add₀ (by norm_num), Int.sub_add_cancel]
  have hlow : (num.log2 : Int) - (den.log2 + 1) ≤ Int.log 2 ((num : ℚ) / den) := by
    rw [← zpow_le_iff_le_log hq, le_div_iff₀ hden']
    calc _ ≤ (2 : ℚ) ^ ((num.log2 : Int) - (den.log2 + 1)) * 2 ^ ((den.log2 : Int) + 1) := by
          gcongr
      _ = 2 ^ (num.log2 : Int) := hpow _ _
      _ ≤ num := hnumLow
  have hhigh : Int.log 2 ((num : ℚ) / den) < (num.log2 : Int) + 1 - den.log2 := by
    rw [← lt_zpow_iff_log_lt hq, div_lt_iff₀ hden']
    calc (num : ℚ) < 2 ^ ((num.log2 : Int) + 1) := hnumHigh
      _ = 2 ^ ((num.log2 : Int) + 1 - den.log2) * 2 ^ (den.log2 : Int) := (hpow _ _).symm
      _ ≤ _ := by gcongr
  have hiff := (le_scaled_iff num hden (num.log2 - den.log2)).trans
    (zpow_le_iff_le_log hq _)
  simp only [floorLog2]
  split_ifs with hle
  · have := hiff.1 hle
    omega
  · have := mt hiff.2 hle
    omega

/-- The computation with natural numbers rounds the rational number. -/
theorem nearestBits_eq_magnitude (num : Nat) {den : Nat} (hden : 0 < den) :
    nearestBits num den = magnitude ((num : ℚ) / den) := by
  by_cases hnum : num = 0
  · simp [hnum, nearestBits, magnitude]
  · have hden' : (den : ℚ) ≠ 0 := by exact_mod_cast hden.ne'
    have hq : (num : ℚ) / den ≠ 0 := div_ne_zero (by exact_mod_cast hnum) hden'
    rw [nearestBits, magnitude, if_neg hnum, if_neg hq, floorLog2_eq_log (by omega) hden]
    generalize max (Int.log 2 ((num : ℚ) / den) - 52) (-1074) = e
    have hscaled := scaled_fraction num den 2 (-e)
    rw [Int.neg_neg, Nat.cast_ofNat, zpow_neg, ← div_eq_mul_inv] at hscaled
    have hpower : 0 < power 2 e := power_pos (by decide) e
    have hround := divRoundEven_eq_roundEven (num * power 2 (-e)) (Nat.mul_pos hden hpower)
    simp only [hround, hscaled]

/-- The number nearest to a fraction is that of its rational value. -/
theorem nearest_eq_round (negative : Bool) (num : Nat) {den : Nat} (hden : 0 < den) :
    nearest negative num den = round negative ((num : ℚ) / den) := by
  rw [nearest, round, nearestBits_eq_magnitude num hden]

/-! ### Finite numbers -/

/-- A significand and an exponent as a finite number has them: fifty-three bits, unless the exponent
is the lowest one. -/
structure IsNormalized (m : Nat) (e : Int) : Prop where
  significand_lt : m < 2 ^ 53
  le_exponent : -1074 ≤ e
  exponent_le : e ≤ 971
  leading : 2 ^ 52 ≤ m ∨ e = -1074

/-- The fields of a finite number: its sign, and its magnitude in bits. -/
theorem exists_fields {x : Float} {negative : Bool} {m : Nat} {e : Int}
    (h : ofFloat x = finite negative m e) :
    IsNormalized m e ∧
      x.toBits.toNat = (if negative then signBit else 0) + ((e + 1074).toNat * exponentUnit + m) := by
  have hbits : x.toBits.toNat < 2 ^ 64 := x.toBits.toNat_lt
  have hunit : exponentUnit = 2 ^ 52 := rfl
  have hsignBit : signBit = 2 ^ 63 := rfl
  have hsign : (if decide (signBit ≤ x.toBits.toNat) then signBit else 0) =
      x.toBits.toNat / 2 ^ 63 * 2 ^ 63 := by
    by_cases hle : signBit ≤ x.toBits.toNat
    · rw [if_pos (decide_eq_true hle)]
      omega
    · rw [if_neg (by simpa using hle)]
      omega
  simp only [ofFloat, ofBits, hunit] at h
  split_ifs at h with hhighest hzero hlowest
  · cases h
    rw [hsign, hunit]
    refine ⟨⟨?_, ?_, ?_, Or.inr rfl⟩, ?_⟩ <;> omega
  · cases h
    rw [hsign, hunit]
    refine ⟨⟨?_, ?_, ?_, Or.inl ?_⟩, ?_⟩ <;> omega

theorem log_mul_zpow {m : Nat} (hm : 0 < m) (e : Int) : Int.log 2 ((m : ℚ) * 2 ^ e) = m.log2 + e := by
  obtain ⟨hlow, hhigh⟩ := zpow_log2_bounds hm
  have hq : 0 < (m : ℚ) * 2 ^ e := by positivity
  have htwo : (2 : ℚ) ≠ 0 := by norm_num
  have hlow : (m.log2 : Int) + e ≤ Int.log 2 ((m : ℚ) * 2 ^ e) := by
    rw [← zpow_le_iff_le_log hq, zpow_add₀ htwo]
    gcongr
  have hhigh : Int.log 2 ((m : ℚ) * 2 ^ e) < (m.log2 : Int) + 1 + e := by
    rw [← lt_zpow_iff_log_lt hq, zpow_add₀ htwo]
    gcongr
  omega

/-- The magnitude of a finite number is not rounded. -/
theorem magnitude_of_isNormalized {m : Nat} {e : Int} (h : IsNormalized m e) :
    magnitude ((m : ℚ) * 2 ^ e) = (e + 1074).toNat * exponentUnit + m := by
  obtain ⟨hlt, hlow, hhigh, hleading⟩ := h
  have hpos : (2 : ℚ) ^ e ≠ 0 := by positivity
  by_cases hm : m = 0
  · obtain rfl : e = -1074 := by omega
    simp [hm, magnitude]
  · have hne : (m : ℚ) * 2 ^ e ≠ 0 := mul_ne_zero (by exact_mod_cast hm) hpos
    have hlog : max (((m.log2 : Nat) : Int) + e - 52) (-1074) = e := by
      have hbelow : m.log2 < 53 := (Nat.log2_lt hm).2 hlt
      rcases hleading with hleading | rfl
      · have habove : 52 ≤ m.log2 := (Nat.le_log2 hm).2 hleading
        omega
      · omega
    have hunit : exponentUnit = 2 ^ 52 := rfl
    have hinfinity : infinityBits = 2047 * 2 ^ 52 := rfl
    rw [magnitude, if_neg hne, log_mul_zpow (by omega)]
    simp only [hlog]
    rw [mul_div_cancel_right₀ _ hpos, roundEven_natCast, hunit, hinfinity]
    omega

/-- A finite number is nearest to its own magnitude. -/
theorem round_of_ofFloat {x : Float} {negative : Bool} {m : Nat} {e : Int}
    (h : ofFloat x = finite negative m e) : round negative ((m : ℚ) * 2 ^ e) = x := by
  obtain ⟨hnormalized, hbits⟩ := exists_fields h
  have hsigned : round negative ((m : ℚ) * 2 ^ e) = Float.ofBits (UInt64.ofNat x.toBits.toNat) := by
    rw [round, signed, magnitude_of_isNormalized hnormalized, hbits]
    cases negative <;> simp
  rw [hsigned, UInt64.ofNat_toNat, ofBits_toBits]

/-! ### What is too large or too small -/

theorem magnitude_zero : magnitude 0 = 0 := by
  rw [magnitude, if_pos rfl]

/-- What is below half of the lowest magnitude is nearest to zero. -/
theorem magnitude_of_lt {q : ℚ} (hq : 0 ≤ q) (h : q < 2 ^ (-1075 : Int)) : magnitude q = 0 := by
  rcases hq.eq_or_lt with rfl | hpos
  · exact magnitude_zero
  · have hlog : Int.log 2 q < -1075 :=
      (Int.lt_zpow_iff_log_lt (b := 2) (by decide) hpos).1 (by exact_mod_cast h)
    have hexp : max (Int.log 2 q - 52) (-1074) = -1074 := by
      omega
    have hhalf : q / 2 ^ (-1074 : Int) < 1 / 2 := by
      have hpower : (2 : ℚ) ^ (-1075 : Int) = 1 / 2 * 2 ^ (-1074 : Int) := by
        rw [show (-1075 : Int) = -1 + -1074 by omega, zpow_add₀ (by norm_num)]
        norm_num
      rw [div_lt_iff₀ (by positivity), ← hpower]
      exact h
    rw [magnitude, if_neg hpos.ne']
    simp only [hexp, roundEven_eq_zero hhalf]
    simp

/-- What is at least the first power of two beyond the exponents becomes infinity. -/
theorem magnitude_of_le {q : ℚ} (h : 2 ^ (1024 : Int) ≤ q) : magnitude q = infinityBits := by
  have hpos : 0 < q := lt_of_lt_of_le (by positivity) h
  have hlog : 1024 ≤ Int.log 2 q := (zpow_le_iff_le_log hpos _).1 h
  have hexp : max (Int.log 2 q - 52) (-1074) = Int.log 2 q - 52 := by
    omega
  have hsignificand : 2 ^ 52 ≤ roundEven (q / 2 ^ (Int.log 2 q - 52)) := by
    refine le_trans (Nat.le_floor ?_) (floor_le_roundEven _)
    have hself : 2 ^ Int.log 2 q ≤ q := (zpow_le_iff_le_log hpos _).2 (le_refl _)
    rw [le_div_iff₀ (by positivity)]
    calc ((2 ^ 52 : ℕ) : ℚ) * 2 ^ (Int.log 2 q - 52) = 2 ^ Int.log 2 q := by
          rw [show Int.log 2 q = 52 + (Int.log 2 q - 52) by omega, zpow_add₀ (by norm_num)]
          norm_num
      _ ≤ q := hself
  have hunit : exponentUnit = 2 ^ 52 := rfl
  have hinfinity : infinityBits = 2047 * 2 ^ 52 := rfl
  rw [magnitude, if_neg hpos.ne']
  simp only [hexp, hunit, hinfinity]
  omega

/-! ### What is not finite -/

/-- There is one number of each kind that is not finite. -/
theorem eq_infinity {x : Float} {negative : Bool} (h : ofFloat x = infinite negative) :
    x = infinity negative := by
  have hbits : x.toBits.toNat < 2 ^ 64 := x.toBits.toNat_lt
  have hunit : exponentUnit = 2 ^ 52 := rfl
  have hsignBit : signBit = 2 ^ 63 := rfl
  have hinfinity : infinityBits = 2047 * 2 ^ 52 := rfl
  have hsigned : infinity negative = Float.ofBits (UInt64.ofNat x.toBits.toNat) := by
    rw [infinity, signed]
    congr 2
    simp only [ofFloat, ofBits, hunit] at h
    split_ifs at h with hhighest hzero
    · cases h
      by_cases hle : signBit ≤ x.toBits.toNat
      · rw [if_pos (decide_eq_true hle)]
        omega
      · rw [if_neg (by simpa using hle)]
        omega
  rw [hsigned, UInt64.ofNat_toNat, ofBits_toBits]

theorem eq_notANumber {x : Float} (h : ofFloat x = nan) : x = notANumber := by
  have hunit : exponentUnit = 2 ^ 52 := rfl
  have hbits : x.toBits = 0x7FF8000000000000 := by
    simp only [ofFloat, ofBits, hunit] at h
    split_ifs at h with hhighest hzero
    exact toBits_of_isNaN hhighest hzero
  rw [← ofBits_toBits x, hbits]
  rfl

end Binary64

end FormulaSheet
