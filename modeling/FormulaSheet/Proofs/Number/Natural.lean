import FormulaSheet.Number.Literal
import FormulaSheet.Proofs.Number.Rounding
import Mathlib.Data.List.TakeWhile
import Mathlib.Tactic.IntervalCases

/-!
# Natural numbers among the binary64 numbers

A natural number is a binary64 number when it is a significand below `2 ^ 53` times a power of two.
The number nearest to a natural number is that natural number rounded to fifty-three bits, so
writing a natural number that is a binary64 number in decimal digits and reading the digits gives
the same number. Of those up to `2 ^ 64` the last one is the only one above the largest index; the
index in its place is read as the same number.

## Main definitions

* `Binary64.IsSignificant`: the natural numbers that fifty-three bits can hold.
* `Binary64.roundNatural`: a natural number rounded to fifty-three bits.

## Main results

* `Binary64.natural?_nearest`: the number nearest to a natural number.
* `Binary64.natural?_nearest_min`: what an index is read as.
* `Literal.read?_repr`: decimal digits are read as the nearest number.
-/

namespace FormulaSheet

namespace Binary64

/-- A natural number with at most fifty-three bits up to the zeros at the end. -/
def IsSignificant (n : Nat) : Prop :=
  ∃ m t, m < 2 ^ 53 ∧ n = m * 2 ^ t

theorem power_of_nonpos (base : Nat) {k : Int} (h : k ≤ 0) : power base k = 1 := by
  rw [power, Int.toNat_of_nonpos h]
  rfl

theorem isSignificant_of_lt {n : Nat} (h : n < 2 ^ 53) : IsSignificant n :=
  ⟨n, 0, h, by rw [Nat.pow_zero, Nat.mul_one]⟩

/-- Natural numbers that are binary64 numbers have few significant bits. -/
theorem isSignificant_of_natural? {x : Float} {n : Nat} (h : natural? x = some n) :
    IsSignificant n := by
  rw [natural?] at h
  cases hx : ofFloat x with
  | nan | infinite => simp [hx] at h
  | finite negative m e =>
    have hm := (exists_fields hx).1.significand_lt
    obtain ⟨-, rfl⟩ : _ ∧ numerator m e / denominator e = n := by simpa [hx] using h
    rcases Int.le_total 0 e with he | he
    · refine ⟨m, e.toNat, hm, ?_⟩
      rw [numerator, denominator, power_of_nonpos 2 (by omega : -e ≤ 0), Nat.div_one]
      rfl
    · refine ⟨m / denominator e, 0, Nat.lt_of_le_of_lt (Nat.div_le_self _ _) hm, ?_⟩
      rw [numerator, power_of_nonpos 2 he, Nat.mul_one, Nat.pow_zero, Nat.mul_one]

/-! ### Rounding to fifty-three bits -/

/-- A natural number rounded to fifty-three bits, a tie going to the even significand. -/
def roundNatural (n : Nat) : Nat :=
  divRoundEven n (2 ^ (n.log2 - 52)) * 2 ^ (n.log2 - 52)

/-- A quotient without remainder is not rounded. -/
theorem divRoundEven_mul (s : Nat) {d : Nat} (hd : 0 < d) : divRoundEven (s * d) d = s := by
  rw [divRoundEven, Nat.mul_mod_left, Nat.mul_div_cancel s hd]
  simp [hd]

/-- A natural number of few significant bits is not rounded. -/
theorem roundNatural_of_isSignificant {n : Nat} (h : IsSignificant n) : roundNatural n = n := by
  obtain ⟨s, hs⟩ : ∃ s, n = s * 2 ^ (n.log2 - 52) := by
    obtain ⟨m, t, hm, rfl⟩ := h
    rcases Nat.eq_zero_or_pos m with rfl | hpos
    · exact ⟨0, by simp⟩
    · -- the leading bit leaves room for all zeros beyond fifty-three bits
      have hlog : (m * 2 ^ t).log2 < 53 + t := by
        refine (Nat.log2_lt (Nat.mul_pos hpos (Nat.two_pow_pos t)).ne').2 ?_
        rw [Nat.pow_add]
        exact Nat.mul_lt_mul_of_pos_right hm (Nat.two_pow_pos t)
      refine ⟨m * 2 ^ (t - ((m * 2 ^ t).log2 - 52)), ?_⟩
      rw [Nat.mul_assoc, ← Nat.pow_add, Nat.sub_add_cancel (by omega)]
  rw [roundNatural]
  generalize n.log2 - 52 = k at hs
  rw [hs, divRoundEven_mul s (Nat.two_pow_pos k)]

/-- The exponent that leaves fifty-three bits to the significand of a natural number. -/
def naturalExponent (n : Nat) : Int :=
  (n.log2 : Int) - 52

/-- The significand of a natural number, rounded to fifty-three bits. -/
def naturalSignificand (n : Nat) : Nat :=
  roundEven (n / 2 ^ naturalExponent n)

/-- The rounded natural number in terms of its significand and its exponent. -/
theorem cast_roundNatural (n : Nat) :
    (roundNatural n : ℚ) = naturalSignificand n * 2 ^ naturalExponent n := by
  rcases Nat.lt_or_ge n.log2 52 with hlog | hlog
  · -- the significand has zeros at its end
    have hn : n < 2 ^ 53 :=
      lt_trans Nat.lt_log2_self (Nat.pow_lt_pow_right (by decide) (by omega))
    obtain ⟨k, hk⟩ : ∃ k : Nat, naturalExponent n = -(k : Int) :=
      ⟨52 - n.log2, by rw [naturalExponent]; omega⟩
    have hscaled : (n : ℚ) / 2 ^ naturalExponent n = ((n * 2 ^ k : ℕ) : ℚ) := by
      simp [hk]
    rw [roundNatural_of_isSignificant (isSignificant_of_lt hn), naturalSignificand, hscaled,
      roundEven_natCast, ← hscaled, div_mul_cancel₀ _ (by positivity)]
  · have hpower : (2 : ℚ) ^ naturalExponent n = ((2 ^ (n.log2 - 52) : ℕ) : ℚ) := by
      rw [naturalExponent, show (n.log2 : Int) - 52 = ((n.log2 - 52 : ℕ) : Int) by omega,
        zpow_natCast]
      push_cast
      rfl
    rw [roundNatural, naturalSignificand, hpower,
      divRoundEven_eq_roundEven n (Nat.two_pow_pos _), Nat.cast_mul]

theorem naturalSignificand_bounds {n : Nat} (hn : 0 < n) :
    2 ^ 52 ≤ naturalSignificand n ∧ naturalSignificand n ≤ 2 ^ 53 := by
  obtain ⟨hlow, hhigh⟩ := zpow_log2_bounds hn
  have hpow (k : Int) : (2 : ℚ) ^ (k + naturalExponent n) = 2 ^ k * 2 ^ naturalExponent n :=
    zpow_add₀ (by norm_num) _ _
  have hexponent : (n.log2 : Int) = 52 + naturalExponent n := by
    rw [naturalExponent]
    omega
  constructor
  · refine le_trans (Nat.le_floor ?_) (floor_le_roundEven _)
    rw [hexponent, hpow] at hlow
    rw [le_div_iff₀ (by positivity)]
    exact_mod_cast hlow
  · refine le_trans (roundEven_le_floor_add_one _) ?_
    rw [hexponent, show 52 + naturalExponent n + 1 = 53 + naturalExponent n by omega, hpow] at hhigh
    refine (Nat.floor_lt (by positivity)).2 ?_
    rw [div_lt_iff₀ (by positivity)]
    exact_mod_cast hhigh

/-- Rounding goes at most to the next power of two. -/
theorem roundNatural_le {n k : Nat} (hn : n < 2 ^ k) : roundNatural n ≤ 2 ^ k := by
  rcases Nat.eq_zero_or_pos n with rfl | hpos
  · exact Nat.zero_le _
  · have hlog : n.log2 < k := (Nat.log2_lt hpos.ne').2 hn
    have hsignificand := (naturalSignificand_bounds hpos).2
    have hle : (roundNatural n : ℚ) ≤ ((2 ^ k : ℕ) : ℚ) := by
      rw [cast_roundNatural]
      calc (naturalSignificand n : ℚ) * 2 ^ naturalExponent n
          ≤ ((2 ^ 53 : ℕ) : ℚ) * 2 ^ naturalExponent n := by gcongr
        _ = 2 ^ (53 + naturalExponent n) := by rw [zpow_add₀ (by norm_num)]; norm_num
        _ ≤ 2 ^ (k : Int) := by
          refine zpow_le_zpow_right₀ (by norm_num) ?_
          rw [naturalExponent]
          omega
        _ = ((2 ^ k : ℕ) : ℚ) := by rw [zpow_natCast]; norm_num
    exact_mod_cast hle

/-! ### The number nearest to a natural number -/

/-- The number with an exponent and a significand of fifty-three bits. -/
theorem ofFloat_ofBits {k s : Nat} (hk : k < 2046) (hlow : 2 ^ 52 ≤ s) (hhigh : s < 2 ^ 53) :
    ofFloat (Float.ofBits (UInt64.ofNat (k * 2 ^ 52 + s))) = finite false s ((k : Int) - 1074) := by
  have hbits : (UInt64.ofNat (k * 2 ^ 52 + s)).toNat = k * 2 ^ 52 + s := by
    rw [UInt64.toNat_ofNat']
    omega
  have hfield : (k * 2 ^ 52 + s) / 2 ^ 52 % 2048 = k + 1 := by
    omega
  have hkept : (Float.ofBits (UInt64.ofNat (k * 2 ^ 52 + s))).toBits =
      UInt64.ofNat (k * 2 ^ 52 + s) := by
    apply toBits_ofBits
    rw [hbits, hfield]
    omega
  have hunit : exponentUnit = 2 ^ 52 := rfl
  have hsign : ¬ signBit ≤ k * 2 ^ 52 + s := by
    have : signBit = 2 ^ 63 := rfl
    omega
  have hfraction : 2 ^ 52 + (k * 2 ^ 52 + s) % 2 ^ 52 = s := by
    omega
  rw [ofFloat, hkept, ofBits]
  simp only [hbits, hunit, hfield, hsign, hfraction]
  rw [if_neg (by omega), if_neg (by omega)]
  simp
  omega

/-- The value of the bits of a rounded significand, which may have carried into the exponent. -/
theorem rational?_signed {k s : Nat} (hlow : 2 ^ 52 ≤ s) (hhigh : s ≤ 2 ^ 53)
    (hfinite : k * 2 ^ 52 + s < infinityBits) :
    rational? (signed false (k * 2 ^ 52 + s)) = some ((s : ℚ) * 2 ^ ((k : Int) - 1074)) := by
  have hinfinity : infinityBits = 2047 * 2 ^ 52 := rfl
  rw [signed, if_neg (by decide), rational?]
  rcases hhigh.lt_or_eq with hlt | rfl
  · rw [ofFloat_ofBits (by omega) hlow hlt]
    simp
  · rw [show k * 2 ^ 52 + 2 ^ 53 = (k + 1) * 2 ^ 52 + 2 ^ 52 by omega,
      ofFloat_ofBits (by omega) (Nat.le_refl _) (by decide)]
    have hcarry : (2 : ℚ) ^ (((k + 1 : ℕ) : Int) - 1074) = 2 * 2 ^ ((k : Int) - 1074) := by
      rw [show (((k + 1 : ℕ) : Int) - 1074) = 1 + ((k : Int) - 1074) by omega,
        zpow_add₀ (by norm_num), zpow_one]
    simp only [hcarry]
    norm_num
    ring

/-- A rounded significand leads beyond the finite numbers when the value is too large for them. -/
theorem lt_infinityBits_iff {k s : Nat} (hlow : 2 ^ 52 ≤ s) (hhigh : s ≤ 2 ^ 53) :
    k * 2 ^ 52 + s < infinityBits ↔ (s : ℚ) * 2 ^ ((k : Int) - 1074) < 2 ^ (1024 : Int) := by
  have hinfinity : infinityBits = 2047 * 2 ^ 52 := rfl
  have hlow' : (2 : ℚ) ^ (52 : Int) ≤ s := by exact_mod_cast hlow
  have hhigh' : (s : ℚ) ≤ 2 ^ (53 : Int) := by exact_mod_cast hhigh
  have hpow (a b : Int) : (2 : ℚ) ^ (a + b) = 2 ^ a * 2 ^ b := zpow_add₀ (by norm_num) a b
  rcases Nat.lt_trichotomy k 2045 with hk | rfl | hk
  · have hvalue : (s : ℚ) * 2 ^ ((k : Int) - 1074) < 2 ^ (1024 : Int) := by
      calc (s : ℚ) * 2 ^ ((k : Int) - 1074)
          ≤ 2 ^ (53 : Int) * 2 ^ ((k : Int) - 1074) := by gcongr
        _ = 2 ^ (53 + ((k : Int) - 1074)) := (hpow _ _).symm
        _ < 2 ^ (1024 : Int) := zpow_lt_zpow_right₀ (by norm_num) (by omega)
    exact iff_of_true (by omega) hvalue
  · have hlast : (2 : ℚ) ^ (1024 : Int) = 2 ^ (53 : Int) * 2 ^ (((2045 : ℕ) : Int) - 1074) := by
      rw [← hpow]
      rfl
    rw [hlast, mul_lt_mul_iff_left₀ (by positivity)]
    have hiff : (s : ℚ) < 2 ^ (53 : Int) ↔ s < 2 ^ 53 := by exact_mod_cast Iff.rfl
    rw [hiff]
    omega
  · have hvalue : (2 : ℚ) ^ (1024 : Int) ≤ s * 2 ^ ((k : Int) - 1074) := by
      calc (2 : ℚ) ^ (1024 : Int) ≤ 2 ^ (52 + ((k : Int) - 1074)) :=
            zpow_le_zpow_right₀ (by norm_num) (by omega)
        _ = 2 ^ (52 : Int) * 2 ^ ((k : Int) - 1074) := hpow _ _
        _ ≤ s * 2 ^ ((k : Int) - 1074) := by gcongr
    exact iff_of_false (by omega) (not_lt.2 hvalue)

/-- The bits of the magnitude nearest to a natural number. -/
theorem exists_magnitude_natural {n : Nat} (hn : 0 < n) :
    ∃ k : Nat, (k : Int) - 1074 = naturalExponent n ∧
      magnitude n = min (k * 2 ^ 52 + naturalSignificand n) infinityBits := by
  have hlog : Int.log 2 (n : ℚ) = n.log2 := by
    simpa using log_mul_zpow hn 0
  have hne : (n : ℚ) ≠ 0 := by exact_mod_cast hn.ne'
  have hmax : max ((n.log2 : Int) - 52) (-1074) = naturalExponent n := by
    rw [naturalExponent]
    omega
  refine ⟨(naturalExponent n + 1074).toNat, by rw [naturalExponent]; omega, ?_⟩
  have hunit : exponentUnit = 2 ^ 52 := rfl
  rw [magnitude, if_neg hne]
  simp only [hlog, hmax, hunit]
  rfl

/-- The number nearest to a natural number is that natural number rounded to fifty-three bits. What
rounds to `2 ^ 1024` or more is beyond the finite numbers. -/
theorem natural?_nearest (n : Nat) :
    natural? (nearest false n 1) =
      if roundNatural n < 2 ^ 1024 then some (roundNatural n) else none := by
  rcases Nat.eq_zero_or_pos n with rfl | hpos
  · have hzero : 0 < 2 ^ 1024 := by positivity
    rw [show roundNatural 0 = 0 from rfl, if_pos hzero]
    decide +kernel
  · obtain ⟨k, hk, hmagnitude⟩ := exists_magnitude_natural hpos
    obtain ⟨hlow, hhigh⟩ := naturalSignificand_bounds hpos
    have hfinite := lt_infinityBits_iff (k := k) hlow hhigh
    rw [hk, ← cast_roundNatural] at hfinite
    have hlimit : (roundNatural n : ℚ) < 2 ^ (1024 : Int) ↔ roundNatural n < 2 ^ 1024 := by
      exact_mod_cast Iff.rfl
    rw [hlimit] at hfinite
    rw [nearest_eq_round false n Nat.one_pos, Nat.cast_one, div_one, round, hmagnitude]
    by_cases hlt : k * 2 ^ 52 + naturalSignificand n < infinityBits
    · rw [min_eq_left hlt.le, if_pos (hfinite.1 hlt), natural?_eq_some_iff,
        rational?_signed hlow hhigh hlt, hk, cast_roundNatural]
    · rw [min_eq_right (not_lt.1 hlt), if_neg (mt hfinite.2 hlt)]
      decide +kernel

/-- What rounds to an index or to `2 ^ 64` is finite. -/
theorem natural?_nearest_of_le {n : Nat} (h : roundNatural n ≤ 2 ^ 64) :
    natural? (nearest false n 1) = some (roundNatural n) := by
  have hlimit : 2 ^ 64 < 2 ^ 1024 := by gcongr <;> decide
  rw [natural?_nearest, if_pos (h.trans_lt hlimit)]

/-- The index in place of a natural number is read as that natural number. -/
theorem natural?_nearest_min {n : Nat} (hle : n ≤ 2 ^ 64) (h : IsSignificant n) :
    natural? (nearest false (min n (2 ^ 64 - 1)) 1) = some n := by
  have hround := roundNatural_of_isSignificant h
  rcases Nat.lt_or_ge n (2 ^ 64) with hlt | hge
  · rw [Nat.min_eq_left (by omega), natural?_nearest_of_le (hround.trans_le hle), hround]
  · obtain rfl : n = 2 ^ 64 := by omega
    decide +kernel

end Binary64

namespace Literal

/-! ### Reading decimal digits -/

theorem exists_digitChar {c : Char} (h : c.isDigit = true) : ∃ k < 10, c = Nat.digitChar k := by
  have hc : 48 ≤ c.toNat ∧ c.toNat ≤ 57 := Char.isDigit_iff_toNat.1 h
  refine ⟨c.toNat - 48, by omega, ?_⟩
  rw [← Char.ofNat_toNat c]
  obtain ⟨hlow, hhigh⟩ := hc
  generalize c.toNat = n at *
  interval_cases n <;> decide

theorem toLower_of_isDigit {c : Char} (h : c.isDigit = true) : c.toLower = c := by
  obtain ⟨k, hk, rfl⟩ := exists_digitChar h
  interval_cases k <;> decide

/-- What starts with a digit is no name of a number. -/
theorem unsigned?_cons {c : Char} (hc : c.isDigit = true) (negative : Bool) (cs : List Char) :
    unsigned? negative (c :: cs) = (decimal? (c :: cs)).map (Decimal.toFloat · negative) := by
  have hname (s : String) (hs : s.toList.head?.any Char.isDigit = false) :
      (c :: cs).map Char.toLower ≠ s.toList := by
    intro h
    rw [← h, List.map_cons, List.head?_cons, Option.any_some, toLower_of_isDigit hc, hc] at hs
    cases hs
  have hinf := hname "inf" (by decide)
  have hinfinity := hname "infinity" (by decide)
  have hnan := hname "nan" (by decide)
  simp only [unsigned?, hinf, hinfinity, hnan, or_self, if_false]

/-- What starts with a digit has no sign. -/
theorem read?_cons {c : Char} (hc : c.isDigit = true) (cs : List Char) :
    read? (c :: cs) = unsigned? false (c :: cs) := by
  rw [read?.eq_def]
  split
  · next h =>
    obtain ⟨rfl, rfl⟩ := List.cons.inj h
    cases hc
  · next h =>
    obtain ⟨rfl, rfl⟩ := List.cons.inj h
    cases hc
  · rfl

section Digits

variable {ds : List Char} (hds : ∀ c ∈ ds, c.isDigit = true)

include hds

/-- Digits are a decimal literal without a point and an exponent. -/
theorem decimal?_digits (hne : ds ≠ []) :
    decimal? ds = some ⟨Nat.ofDigitChars 10 ds 0, 0⟩ := by
  have htake : ds.takeWhile Char.isDigit = ds := List.takeWhile_eq_self_iff.2 hds
  have hdrop : ds.dropWhile Char.isDigit = [] := List.dropWhile_eq_nil_iff.2 hds
  simp [decimal?, htake, hdrop, fraction, hne]

/-- Digits are a literal without a sign. -/
theorem read?_digits (hne : ds ≠ []) :
    read? ds = some (Decimal.toFloat ⟨Nat.ofDigitChars 10 ds 0, 0⟩ false) := by
  have hdecimal := decimal?_digits hds hne
  obtain ⟨c, cs, rfl⟩ := List.exists_cons_of_ne_nil hne
  have hc : c.isDigit = true := hds c List.mem_cons_self
  rw [read?_cons hc, unsigned?_cons hc, hdecimal, Option.map_some]

end Digits

/-- The number of a decimal value that is a natural number is the nearest one. -/
theorem toFloat_natural (n : Nat) : Decimal.toFloat ⟨n, 0⟩ false = Binary64.nearest false n 1 := by
  rw [Decimal.toFloat]
  by_cases hn : n = 0
  · subst hn
    rfl
  · simp [hn, Decimal.exponentLimit, power]

/-- Decimal digits are read as the nearest number. -/
theorem read?_repr (n : Nat) : read? n.repr.toList = some (Binary64.nearest false n 1) := by
  rw [Nat.toList_repr]
  have hdigits : ∀ c ∈ Nat.toDigits 10 n, c.isDigit = true := by
    intro c hc
    exact Nat.isDigit_of_mem_toDigits (by decide) (by decide) hc
  rw [read?_digits hdigits Nat.toDigits_ne_nil, Nat.ofDigitChars_ten_toDigits, toFloat_natural]

end Literal

end FormulaSheet
