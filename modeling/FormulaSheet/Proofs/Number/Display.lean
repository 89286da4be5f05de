import FormulaSheet.Number.Printing
import FormulaSheet.Proofs.Number.Decimals
import FormulaSheet.Proofs.Number.Numeral

/-!
# Numbers as they are shown

A finite number is shown by a sign, if it has one, and decimal digits. Whole numbers below `10 ^ 15`
are shown to their last digit. All others have three digits after a point: the number is rounded to
the nearest thousandth, so it is shown within half a thousandth, and a whole number is shown as it
is.

## Main definitions

* `Shown`: a sign, digits, and digits after a point, with their text and their rational value.
* `Shown.ofFraction`: how a fraction is shown.

## Main results

* `Shown.text_injective`: a text shows one value.
* `Shown.abs_magnitude_ofFraction_sub_le`, `Shown.magnitude_ofFraction_of_mod_eq_zero`: how far a
  fraction is from what is shown.
* `Number.display_accurate`: how a finite number is shown.
-/

namespace FormulaSheet

/-- A number as it is shown: a sign or none, digits without a superfluous zero in front, and three
more digits after a point or none. -/
structure Shown where
  negative : Bool
  whole : Numeral
  fraction : Option Numeral
  isCanonical : whole.IsCanonical
  length_fraction : ∀ ds ∈ fraction, ds.chars.length = 3

namespace Shown

/-- The point and the digits after it, if there are any. -/
def fractionText (t : Shown) : String :=
  match t.fraction with
  | none => ""
  | some ds => "." ++ ds.text

/-- The text that is shown. -/
def text (t : Shown) : String :=
  Number.withSign t.negative (t.whole.text ++ t.fractionText)

/-- What the digits after the point denote. -/
def fractionValue (t : Shown) : ℚ :=
  match t.fraction with
  | none => 0
  | some ds => ds.value / 1000

/-- What is shown, without its sign. -/
def magnitude (t : Shown) : ℚ :=
  t.whole.value + t.fractionValue

/-- The rational number that is shown. -/
def rational (t : Shown) : ℚ :=
  (if t.negative then -1 else 1) * t.magnitude

/-! ### One text, one value -/

theorem toList_fractionText (t : Shown) :
    t.fractionText.toList = (t.fraction.map fun ds => '.' :: ds.chars).getD [] := by
  rw [fractionText]
  cases t.fraction <;> simp

theorem toList_text (t : Shown) :
    t.text.toList =
      (if t.negative then ['-'] else []) ++ (t.whole.chars ++ t.fractionText.toList) := by
  rw [text, Number.withSign]
  split_ifs <;> simp

theorem head?_toList_text_iff (t : Shown) :
    t.text.toList.head? = some '-' ↔ t.negative = true := by
  rw [toList_text]
  cases hsign : t.negative with
  | true => exact iff_of_true rfl rfl
  | false =>
    refine iff_of_false ?_ Bool.false_ne_true
    intro h
    have hhead : t.whole.chars.head? = some '-' := by
      simpa [List.head?_append_of_ne_nil _ t.whole.ne_nil] using h
    exact t.whole.notMem_chars rfl (List.mem_of_head? hhead)

/-- The digits in front of the point are told from what follows them. -/
theorem takeWhile_isDigit (t : Shown) :
    (t.whole.chars ++ t.fractionText.toList).takeWhile Char.isDigit = t.whole.chars ∧
      (t.whole.chars ++ t.fractionText.toList).dropWhile Char.isDigit = t.fractionText.toList := by
  rw [List.takeWhile_append_of_pos t.whole.isDigit, List.dropWhile_append_of_pos t.whole.isDigit,
    toList_fractionText]
  cases t.fraction with
  | none => simp
  | some ds => simp [List.takeWhile_cons_of_neg, List.dropWhile_cons_of_neg]

theorem fraction_eq_of_fractionText_eq {t t' : Shown}
    (h : t.fractionText.toList = t'.fractionText.toList) : t.fraction = t'.fraction := by
  rw [toList_fractionText, toList_fractionText] at h
  cases hds : t.fraction with
  | none =>
    cases hds' : t'.fraction with
    | none => rfl
    | some ds' => simp [hds, hds'] at h
  | some ds =>
    cases hds' : t'.fraction with
    | none => simp [hds, hds'] at h
    | some ds' =>
      have hchars : ds.chars = ds'.chars := by simpa [hds, hds'] using h
      rw [Numeral.eq_of_chars_eq hchars]

/-- A text shows one value. -/
theorem text_injective : Function.Injective text := by
  intro t t' h
  have hchars : t.text.toList = t'.text.toList := congrArg String.toList h
  have hsign : t.negative = t'.negative := by
    rw [Bool.eq_iff_iff, ← head?_toList_text_iff, ← head?_toList_text_iff, hchars]
  rw [toList_text, toList_text, hsign] at hchars
  have hunsigned := List.append_cancel_left hchars
  have hwhole : t.whole = t'.whole := by
    apply Numeral.eq_of_chars_eq
    rw [← t.takeWhile_isDigit.1, hunsigned, t'.takeWhile_isDigit.1]
  have hfraction : t.fraction = t'.fraction := by
    apply fraction_eq_of_fractionText_eq
    rw [← t.takeWhile_isDigit.2, hunsigned, t'.takeWhile_isDigit.2]
  cases t
  cases t'
  simp only at hsign hwhole hfraction
  subst hsign hwhole hfraction
  rfl

/-! ### How fractions are shown -/

/-- A whole number, to its last digit. -/
def ofWhole (negative : Bool) (n : Nat) : Shown where
  negative := negative
  whole := .ofNat n
  fraction := none
  isCanonical := Numeral.isCanonical_ofNat n
  length_fraction := nofun

/-- The digits after the point of a number of thousandths. -/
def thousandths (n : Nat) : Numeral where
  chars := Decimal.fractionDigits n 3
  ne_nil := List.ne_nil_of_length_pos (by rw [Decimal.length_fractionDigits]; decide)
  isDigit _ hc := Decimal.isDigit_of_mem_fractionDigits hc

/-- A number of thousandths, with three digits after the point. -/
def ofThousandths (negative : Bool) (n : Nat) : Shown where
  negative := negative
  whole := .ofNat (n / 1000)
  fraction := some (thousandths n)
  isCanonical := Numeral.isCanonical_ofNat _
  length_fraction := by
    rintro ds ⟨⟩
    exact Decimal.length_fractionDigits n 3

/-- The fraction `± num / den` as it is shown. -/
def ofFraction (negative : Bool) (num den : Nat) : Shown :=
  if num % den = 0 ∧ num / den < Number.wholeLimit then ofWhole negative (num / den)
  else ofThousandths negative (divRoundEven (num * 1000) den)

theorem text_ofWhole (negative : Bool) (n : Nat) :
    (ofWhole negative n).text = Number.withSign negative (Decimal.placesText n 0) := by
  have hplaces : Decimal.placesText n 0 = n.repr := by
    rw [Decimal.placesText, Decimal.joinFraction, Decimal.fractionDigits]
    simp [power]
  rw [hplaces, ← Numeral.text_ofNat, text]
  simp [ofWhole, fractionText]

theorem text_ofThousandths (negative : Bool) (n : Nat) :
    (ofThousandths negative n).text = Number.withSign negative (Decimal.placesText n 3) := by
  have hne : Decimal.fractionDigits n 3 ≠ [] := (thousandths n).ne_nil
  have hpower : power 10 (3 : ℕ) = 1000 := rfl
  rw [Decimal.placesText, Decimal.joinFraction, if_neg hne, hpower, ← Numeral.text_ofNat, text]
  simp [ofThousandths, fractionText, thousandths, Numeral.text, String.append_assoc]

theorem text_ofFraction (negative : Bool) (num den : Nat) :
    (ofFraction negative num den).text =
      Number.withSign negative (Number.displayMagnitude num den) := by
  rw [ofFraction, Number.displayMagnitude]
  split_ifs
  · exact text_ofWhole negative _
  · exact text_ofThousandths negative _

theorem negative_ofFraction (negative : Bool) (num den : Nat) :
    (ofFraction negative num den).negative = negative := by
  rw [ofFraction]
  split_ifs <;> rfl

/-- There is no point in a whole number below `10 ^ 15`, and in all else there is one. -/
theorem fraction_ofFraction_eq_none_iff (negative : Bool) (num den : Nat) :
    (ofFraction negative num den).fraction = none ↔
      num % den = 0 ∧ num / den < Number.wholeLimit := by
  rw [ofFraction]
  split_ifs with h
  · exact iff_of_true rfl h
  · exact iff_of_false (Option.some_ne_none _) h

/-! ### How far a fraction is from what is shown -/

theorem magnitude_ofWhole (negative : Bool) (n : Nat) : (ofWhole negative n).magnitude = n := by
  simp [magnitude, fractionValue, ofWhole]

theorem magnitude_ofThousandths (negative : Bool) (n : Nat) :
    (ofThousandths negative n).magnitude = n / 1000 := by
  have hdigits : (thousandths n).value = n % 1000 := Decimal.ofDigitChars_fractionDigits n 3
  have hsum : (n : ℚ) = 1000 * ((n / 1000 : ℕ) : ℚ) + ((n % 1000 : ℕ) : ℚ) := by
    exact_mod_cast (Nat.div_add_mod n 1000).symm
  simp only [magnitude, fractionValue, ofThousandths, Numeral.value_ofNat, hdigits]
  rw [eq_div_iff (by norm_num), add_mul, div_mul_cancel₀ _ (by norm_num), hsum]
  ring

theorem abs_sign_mul (negative : Bool) (a : ℚ) :
    |(if negative then -1 else 1) * a| = |a| := by
  cases negative <;> simp

section Error

variable {num den : Nat} (hden : 0 < den) (negative : Bool)

include hden

theorem roundedThousandths_eq :
    divRoundEven (num * 1000) den = roundEven ((num : ℚ) / den * 1000) := by
  rw [divRoundEven_eq_roundEven _ hden, Nat.cast_mul, Nat.cast_ofNat, mul_div_right_comm]

theorem div_eq_of_mod_eq_zero (h : num % den = 0) : (num : ℚ) / den = ((num / den : ℕ) : ℚ) :=
  (Binary64.mod_eq_zero_and_div_eq_iff hden _).1 ⟨h, rfl⟩

/-- A fraction that is a whole number is shown exactly. -/
theorem magnitude_ofFraction_of_mod_eq_zero (h : num % den = 0) :
    (ofFraction negative num den).magnitude = (num : ℚ) / den := by
  have hwhole := div_eq_of_mod_eq_zero hden h
  rw [ofFraction]
  split_ifs
  · rw [magnitude_ofWhole, hwhole]
  · have hthousandths : divRoundEven (num * 1000) den = num / den * 1000 := by
      rw [roundedThousandths_eq hden, hwhole, ← Nat.cast_ofNat, ← Nat.cast_mul, roundEven_natCast]
    rw [magnitude_ofThousandths, hthousandths, hwhole, Nat.cast_mul, Nat.cast_ofNat,
      mul_div_cancel_right₀ _ (by norm_num)]

/-- A fraction is shown within half a thousandth. -/
theorem abs_magnitude_ofFraction_sub_le :
    |(ofFraction negative num den).magnitude - (num : ℚ) / den| ≤ 1 / 2000 := by
  by_cases hwhole : num % den = 0
  · rw [magnitude_ofFraction_of_mod_eq_zero hden negative hwhole, sub_self, abs_zero]
    norm_num
  · have hround := abs_roundEven_sub_le (q := (num : ℚ) / den * 1000) (by positivity)
    rw [ofFraction, if_neg (mt And.left hwhole), magnitude_ofThousandths,
      roundedThousandths_eq hden]
    rw [abs_le] at hround ⊢
    constructor <;> linarith

/-- With either sign a fraction is a whole number when it leaves no remainder. -/
theorem exists_int_iff :
    (∃ z : ℤ, (if negative then -1 else 1) * ((num : ℚ) / den) = z) ↔ num % den = 0 := by
  constructor
  · rintro ⟨z, hz⟩
    have hmagnitude : (num : ℚ) / den = z.natAbs := by
      rw [Nat.cast_natAbs, Int.cast_abs, ← hz, abs_sign_mul, abs_of_nonneg (by positivity)]
    exact ((Binary64.mod_eq_zero_and_div_eq_iff hden _).2 hmagnitude).1
  · intro h
    have hwhole := div_eq_of_mod_eq_zero hden h
    cases negative with
    | false =>
      refine ⟨(num / den : ℕ), ?_⟩
      rw [hwhole, if_neg Bool.false_ne_true, one_mul, Int.cast_natCast]
    | true =>
      refine ⟨-(num / den : ℕ), ?_⟩
      rw [hwhole, if_pos rfl, neg_one_mul, Int.cast_neg, Int.cast_natCast]

/-- There is no point in what is shown when the fraction is a whole number below `10 ^ 15`. -/
theorem fraction_ofFraction_eq_none_iff_exists_int :
    (ofFraction negative num den).fraction = none ↔
      (∃ z : ℤ, (if negative then -1 else 1) * ((num : ℚ) / den) = z) ∧
        |(if negative then -1 else 1) * ((num : ℚ) / den)| < 10 ^ 15 := by
  rw [fraction_ofFraction_eq_none_iff, exists_int_iff hden, abs_sign_mul,
    abs_of_nonneg (by positivity)]
  refine and_congr_right fun h => ?_
  have hwhole := div_eq_of_mod_eq_zero hden h
  have hlimit : Number.wholeLimit = 10 ^ 15 := rfl
  rw [hwhole, hlimit]
  exact_mod_cast Iff.rfl

end Error

end Shown

namespace Number

/-- **Numbers as they are shown.** A finite number is shown by a sign, if it has one, digits without
a superfluous zero in front, and three more digits after a point or none. There is no point exactly
when the number is whole and below `10 ^ 15`. What is shown is within half a thousandth of the
number, and it is the number itself when that is whole. Nothing else is shown by the same text. -/
theorem display_accurate {x : Float} {q : ℚ} (hx : Binary64.rational? x = some q) :
    ∃ t : Shown, (∀ t' : Shown, t'.text = display x ↔ t' = t) ∧
      (t.fraction = none ↔ (∃ z : ℤ, q = z) ∧ |q| < 10 ^ 15) ∧
      |t.rational - q| ≤ 1 / 2000 ∧
      ((∃ z : ℤ, q = z) → t.rational = q) := by
  rw [Binary64.rational?] at hx
  cases hfinite : Binary64.ofFloat x with
  | nan | infinite => simp [hfinite] at hx
  | finite negative m e =>
    have hden : 0 < Binary64.denominator e := power_pos (by decide) _
    obtain rfl : (if negative then -1 else 1) *
        ((Binary64.numerator m e : ℚ) / Binary64.denominator e) = q := by
      simpa [hfinite, Binary64.mul_zpow_eq_div] using hx
    have htext : display x = withSign negative
        (displayMagnitude (Binary64.numerator m e) (Binary64.denominator e)) := by
      rw [display, hfinite]
    generalize Binary64.numerator m e = num at htext ⊢
    generalize Binary64.denominator e = den at htext hden ⊢
    refine ⟨.ofFraction negative num den, fun t' => ?_, ?_, ?_, ?_⟩
    · rw [htext, ← Shown.text_ofFraction, Shown.text_injective.eq_iff]
    · exact Shown.fraction_ofFraction_eq_none_iff_exists_int hden negative
    · rw [Shown.rational, Shown.negative_ofFraction, ← mul_sub, Shown.abs_sign_mul]
      exact Shown.abs_magnitude_ofFraction_sub_le hden negative
    · intro hwhole
      rw [Shown.rational, Shown.negative_ofFraction,
        Shown.magnitude_ofFraction_of_mod_eq_zero hden negative
          ((Shown.exists_int_iff hden negative).1 hwhole)]

/-- The number nearest to `-0.9996`. -/
private def belowOne : Float :=
  Float.ofBits 0xBFEFFCB923A29C78

private theorem rational?_belowOne :
    Binary64.rational? belowOne = some (-1 * (9003596375039096 * 2 ^ (-53 : ℤ))) := by
  have hfinite : Binary64.ofFloat belowOne = .finite true 9003596375039096 (-53) := by
    decide +kernel
  rw [Binary64.rational?, hfinite]
  rfl

/-- Rounding carries over the point, and the sign is kept. -/
theorem display_accurate_belowOne :
    Binary64.rational? belowOne = some (-1 * (9003596375039096 * 2 ^ (-53 : ℤ))) ∧
      display belowOne = "-1.000" ∧
      ∃ t : Shown, (∀ t' : Shown, t'.text = display belowOne ↔ t' = t) ∧
        (t.fraction = none ↔
          (∃ z : ℤ, -1 * ((9003596375039096 : ℚ) * 2 ^ (-53 : ℤ)) = z) ∧
            |-1 * ((9003596375039096 : ℚ) * 2 ^ (-53 : ℤ))| < 10 ^ 15) ∧
        |t.rational - -1 * (9003596375039096 * 2 ^ (-53 : ℤ))| ≤ 1 / 2000 ∧
        ((∃ z : ℤ, -1 * ((9003596375039096 : ℚ) * 2 ^ (-53 : ℤ)) = z) →
          t.rational = -1 * (9003596375039096 * 2 ^ (-53 : ℤ))) :=
  ⟨rational?_belowOne, by decide +kernel, display_accurate rational?_belowOne⟩

end Number

end FormulaSheet
