import FormulaSheet.Number.Printing
import FormulaSheet.Proofs.Number.Decimals
import FormulaSheet.Text.Blank

/-!
# The text of a number for editing

A finite number is shown for editing by a decimal value that is read back as the number: the
shortest one that was tried and found to be, or the number itself to its last digit. The signs and
the names of what is not finite are read as well, so every number is read back from its text.

## Main results

* `Shortest.toFloat_decimal`: the shortest decimal value of a number is read as that number.
* `Number.read?_inputText`: the text of a number for editing is read as that number.
-/

namespace FormulaSheet

namespace Shortest

/-- The value to the last digit is the rational number itself. -/
theorem rational_exact (m : Nat) (e : Int) : (exact m e).rational = m * 2 ^ e := by
  rw [exact]
  split_ifs with he
  · obtain ⟨k, rfl⟩ := Int.eq_ofNat_of_zero_le he
    simp [Decimal.rational, power]
  · obtain ⟨k, rfl⟩ : ∃ k : Nat, e = -(k : Int) := ⟨(-e).toNat, by omega⟩
    have hpower : power 5 (- -(k : Int)) = 5 ^ k := by
      rw [Int.neg_neg]
      rfl
    rw [Decimal.rational, hpower, zpow_neg, zpow_neg, zpow_natCast, zpow_natCast,
      show (10 : ℚ) = 5 * 2 by norm_num, mul_pow]
    push_cast
    field_simp

/-- The shortest decimal value of a number is read as that number. -/
theorem toFloat_decimal {x : Float} {negative : Bool} {m : Nat} {e : Int}
    (h : Binary64.ofFloat x = .finite negative m e) :
    (decimal x negative m e).toFloat negative = x := by
  rw [decimal]
  generalize hfound : (List.range maxDigits).findSome? _ = found
  cases found with
  | none =>
    rw [Option.getD_none, Decimal.toFloat_eq_round, rational_exact, Binary64.round_of_ofFloat h]
  | some d =>
    obtain ⟨i, -, hi⟩ := List.exists_of_findSome?_eq_some hfound
    rw [Option.getD_some]
    simpa using List.find?_some hi

end Shortest

namespace Number

/-- The text of a finite number is that of a decimal value that is read as the number. -/
theorem exists_inputText_eq {x : Float} {negative : Bool} {m : Nat} {e : Int}
    (h : Binary64.ofFloat x = .finite negative m e) :
    ∃ d : Decimal, inputText x = withSign negative d.text ∧ d.toFloat negative = x := by
  by_cases hm : m = 0
  · refine ⟨⟨0, 0⟩, ?_, ?_⟩
    · rw [inputText, h]
      simp only [hm, if_true]
      rfl
    · have hround := Binary64.round_of_ofFloat h
      rw [hm, Nat.cast_zero, zero_mul] at hround
      rw [Decimal.toFloat_eq_round, ← hround, Decimal.rational, Nat.cast_zero, zero_mul]
  · refine ⟨Shortest.decimal x negative m e, ?_, Shortest.toFloat_decimal h⟩
    rw [inputText, h]
    simp only [hm, if_false]

/-- A decimal value with a sign is read as its number with that sign. -/
theorem read?_withSign (d : Decimal) (negative : Bool) :
    Literal.read? (withSign negative d.text).toList = some (d.toFloat negative) := by
  cases negative with
  | false =>
    obtain ⟨c, cs, htext, hc⟩ := Literal.exists_text_eq_cons d
    have hunsigned := Literal.unsigned?_text d false
    rw [htext] at hunsigned
    rw [withSign, if_neg (by decide), htext, Literal.read?_cons hc, hunsigned]
  | true =>
    rw [withSign, if_pos rfl, String.toList_append]
    exact Literal.unsigned?_text d true

/-- The text of a number for editing is read as that number. -/
theorem read?_inputText (x : Float) : Literal.read? (inputText x).toList = some x := by
  cases hx : Binary64.ofFloat x with
  | nan =>
    rw [inputText, hx, Binary64.eq_notANumber hx]
    rfl
  | infinite negative =>
    rw [inputText, hx, Binary64.eq_infinity hx]
    cases negative <;> rfl
  | finite negative m e =>
    obtain ⟨d, htext, hd⟩ := exists_inputText_eq hx
    rw [htext, read?_withSign, hd]

/-! ### The characters of the text -/

/-- The characters of numbers besides digits: a sign, a point, and the letters of the names. -/
def marks : List Char :=
  ['-', '.', 'N', 'a', 'i', 'n', 'f']

/-- The characters of numbers. -/
def IsNumeric (c : Char) : Prop :=
  c.isDigit = true ∨ c ∈ marks

instance : DecidablePred IsNumeric := fun c =>
  inferInstanceAs (Decidable (c.isDigit = true ∨ c ∈ marks))

theorem IsNumeric.isBlank_eq_false {c : Char} (hc : IsNumeric c) : Text.isBlank c = false := by
  have hmarks : marks.all (Text.isBlank · = false) = true := by decide
  rcases hc with hdigit | hmark
  · obtain ⟨k, hk, rfl⟩ := Literal.exists_digitChar hdigit
    interval_cases k <;> decide
  · simpa using List.all_eq_true.1 hmarks c hmark

theorem isNumeric_of_mem_text {d : Decimal} {c : Char} (hc : c ∈ d.text.toList) : IsNumeric c := by
  obtain ⟨whole, fraction, htext, hfraction, -⟩ := d.exists_text_eq_joinFraction
  rw [htext, Decimal.toList_joinFraction] at hc
  rcases List.mem_append.1 hc with hc | hc
  · exact Or.inl (Nat.isDigit_of_mem_toDigits (by decide) (by decide) hc)
  · split_ifs at hc
    · cases hc
    · rcases List.mem_cons.1 hc with rfl | hc
      · exact Or.inr (by decide)
      · exact Or.inl (hfraction c hc)

/-- The text of a number has no other characters. -/
theorem isNumeric_of_mem_inputText {x : Float} {c : Char} (hc : c ∈ (inputText x).toList) :
    IsNumeric c := by
  have hname {s : String} (hs : s.toList.all (· ∈ marks) = true) (ha : c ∈ s.toList) :
      IsNumeric c :=
    Or.inr (by simpa using List.all_eq_true.1 hs c ha)
  have hsign (negative : Bool) {t : String} (ht : c ∈ t.toList → IsNumeric c)
      (hc : c ∈ (withSign negative t).toList) : IsNumeric c := by
    rw [withSign] at hc
    split_ifs at hc
    · rw [String.toList_append] at hc
      rcases List.mem_append.1 hc with hc | hc
      · exact hname (by decide) hc
      · exact ht hc
    · exact ht hc
  cases hx : Binary64.ofFloat x with
  | nan =>
    rw [inputText, hx] at hc
    exact hname (s := "NaN") (by decide) hc
  | infinite negative =>
    rw [inputText, hx] at hc
    exact hsign negative (hname (by decide)) hc
  | finite negative m e =>
    obtain ⟨d, htext, -⟩ := exists_inputText_eq hx
    rw [htext] at hc
    exact hsign negative isNumeric_of_mem_text hc

end Number

end FormulaSheet
