import Mathlib.Data.List.Basic
import Mathlib.Tactic.Common

/-!
# Numerals

A numeral is a run of decimal digits. It denotes a natural number, and every natural number has one
numeral without a superfluous zero in front, its decimal digits.

## Main definitions

* `Numeral`: digits in a row.
* `Numeral.value`, `Numeral.text`: the natural number and the text of the digits.
* `Numeral.ofNat`: the decimal digits of a natural number.
* `Numeral.IsCanonical`: numerals without a superfluous zero in front.
-/

namespace FormulaSheet

/-- At least one character, all of them ASCII digits. -/
structure Numeral where
  chars : List Char
  ne_nil : chars ≠ []
  isDigit : ∀ c ∈ chars, c.isDigit = true

namespace Numeral

/-- The natural number that the digits denote. -/
def value (a : Numeral) : Nat :=
  Nat.ofDigitChars 10 a.chars 0

/-- The digits as a text. -/
def text (a : Numeral) : String :=
  String.ofList a.chars

/-- The decimal digits of a natural number. -/
def ofNat (n : Nat) : Numeral where
  chars := Nat.toDigits 10 n
  ne_nil := Nat.toDigits_ne_nil
  isDigit _ hc := Nat.isDigit_of_mem_toDigits (by decide) (by decide) hc

@[simp] theorem value_ofNat (n : Nat) : (ofNat n).value = n :=
  Nat.ofDigitChars_ten_toDigits

@[simp] theorem toList_text (a : Numeral) : a.text.toList = a.chars :=
  String.toList_ofList

theorem text_ofNat (n : Nat) : (ofNat n).text = n.repr := by
  have hchars : (ofNat n).chars = n.repr.toList := Nat.toList_repr.symm
  rw [text, hchars, String.ofList_toList]

theorem eq_of_chars_eq {a b : Numeral} (h : a.chars = b.chars) : a = b := by
  cases a
  cases b
  cases h
  rfl

/-- Digits hold no other characters. -/
theorem notMem_chars {c : Char} (hc : c.isDigit = false) (a : Numeral) : c ∉ a.chars := by
  intro hmem
  rw [a.isDigit c hmem] at hc
  cases hc

/-! ### Zeros in front -/

/-- A zero stands in front only if it is the only digit. -/
def IsCanonical (a : Numeral) : Prop :=
  a.chars.head? = some '0' → a.chars = ['0']

/-- Only the digits of zero start with a zero. -/
theorem eq_zero_of_head?_toDigits {n : Nat} (h : (Nat.toDigits 10 n).head? = some '0') : n = 0 := by
  induction n using Nat.strongRecOn with
  | ind n ih =>
    rcases Nat.lt_or_ge n 10 with hn | hn
    · rw [Nat.toDigits_of_lt_base hn, List.head?_cons, Option.some.injEq] at h
      exact Nat.digitChar_eq_zero.1 h
    · rw [Nat.toDigits_of_base_le (by decide) hn,
        List.head?_append_of_ne_nil _ Nat.toDigits_ne_nil] at h
      have hquotient := ih (n / 10) (by omega) h
      omega

theorem isCanonical_ofNat (n : Nat) : (ofNat n).IsCanonical := by
  intro h
  obtain rfl := eq_zero_of_head?_toDigits h
  rfl

end Numeral

end FormulaSheet
