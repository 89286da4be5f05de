import FormulaSheet.Number.Binary64
import Mathlib.Tactic.Common
import Mathlib.Tactic.FieldSimp
import Mathlib.Tactic.Positivity
import Mathlib.Tactic.NormNum
import Mathlib.Tactic.Linarith
import Mathlib.Algebra.Order.Field.Rat

/-!
# Exact values

A finite binary64 number is a rational number. It is a natural number of the sheet exactly when that
rational number is one.

## Main definitions

* `Binary64.rational?`: the rational number that a finite number is.

## Main results

* `zpow_eq_power_div`: powers with integer exponents as fractions.
* `Binary64.natural?_eq_some_iff`: natural numbers are told by the rational value.
-/

namespace FormulaSheet

theorem power_pos {base : Nat} (hbase : 0 < base) (k : Int) : 0 < power base k :=
  Nat.pow_pos hbase

/-- A power with an integer exponent as a quotient of natural numbers. -/
theorem zpow_eq_power_div (base : Nat) (k : Int) :
    (base : ℚ) ^ k = (power base k : ℚ) / (power base (-k) : ℚ) := by
  rcases Int.le_total 0 k with hk | hk
  · obtain ⟨n, rfl⟩ := Int.eq_ofNat_of_zero_le hk
    simp [power]
  · obtain ⟨n, hn⟩ := Int.eq_ofNat_of_zero_le (Int.neg_nonneg.2 hk)
    obtain rfl : k = -n := by omega
    simp [power]

namespace Binary64

/-- The rational number that a finite number is. -/
def rational? (x : Float) : Option ℚ :=
  match ofFloat x with
  | finite negative m e => some ((if negative then -1 else 1) * (m * 2 ^ e))
  | _ => none

/-- The magnitude of a finite number as a quotient of natural numbers. -/
theorem mul_zpow_eq_div (m : Nat) (e : Int) :
    (m : ℚ) * 2 ^ e = (numerator m e : ℚ) / (denominator e : ℚ) := by
  have hpower := zpow_eq_power_div 2 e
  rw [Nat.cast_ofNat] at hpower
  rw [hpower, numerator, denominator, Nat.cast_mul, mul_div_assoc]

private theorem numerator_eq_zero_iff (m : Nat) (e : Int) : numerator m e = 0 ↔ m = 0 := by
  have hpower : 0 < power 2 e := power_pos (by decide) e
  rw [numerator, Nat.mul_eq_zero]
  omega

/-- A fraction is the natural number `n` when it leaves no remainder and has the quotient `n`. -/
theorem mod_eq_zero_and_div_eq_iff {num den : Nat} (hden : 0 < den) (n : Nat) :
    num % den = 0 ∧ num / den = n ↔ (num : ℚ) / den = n := by
  have hden' : (den : ℚ) ≠ 0 := by exact_mod_cast hden.ne'
  rw [div_eq_iff hden']
  constructor
  · rintro ⟨hmod, rfl⟩
    exact_mod_cast (Nat.div_mul_cancel (Nat.dvd_of_mod_eq_zero hmod)).symm
  · intro h
    obtain rfl : num = n * den := by exact_mod_cast h
    exact ⟨Nat.mul_mod_left n den, Nat.mul_div_cancel n hden⟩

/-- A number of the sheet is the natural number `n` when its rational value is. -/
theorem natural?_eq_some_iff (x : Float) (n : Nat) :
    natural? x = some n ↔ rational? x = some (n : ℚ) := by
  rw [natural?, rational?]
  cases ofFloat x with
  | nan | infinite => simp
  | finite negative m e =>
    have hden : 0 < denominator e := power_pos (by decide) (-e)
    simp only [Option.ite_none_right_eq_some, Option.some.injEq, mul_zpow_eq_div]
    cases negative with
    | false => simpa using mod_eq_zero_and_div_eq_iff hden n
    | true =>
      have hvalue : 0 ≤ (numerator m e : ℚ) / denominator e := by positivity
      constructor
      · rintro ⟨⟨-, hm⟩, rfl⟩
        simp [(numerator_eq_zero_iff m e).2 (hm rfl)]
      · intro h
        have hn : (0 : ℚ) ≤ n := by positivity
        simp only [if_true, neg_one_mul] at h
        have hzero : (numerator m e : ℚ) / denominator e = 0 := by linarith
        have hnum : numerator m e = 0 := by
          rcases div_eq_zero_iff.1 hzero with h | h
          · exact_mod_cast h
          · exact absurd (by exact_mod_cast h) hden.ne'
        have hn' : n = 0 := by
          rw [hzero] at h
          exact_mod_cast h.symm.trans neg_zero
        refine ⟨⟨by rw [hnum, Nat.zero_mod], fun _ => (numerator_eq_zero_iff m e).1 hnum⟩, ?_⟩
        rw [hnum, Nat.zero_div, hn']

end Binary64

end FormulaSheet
