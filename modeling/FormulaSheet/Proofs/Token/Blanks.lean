import FormulaSheet.Proofs.Token.Lexeme
import Mathlib.Data.List.DropRight

/-!
# Blank characters around a formula

Blank characters in front of a formula and after it do not matter: the tokens are the same with and
without them.

## Main results

* `Token.ofText_trim`: a text has the tokens of the trimmed text.
-/

namespace FormulaSheet

namespace Text

/-- Trimming drops the blank characters in front and then those at the end. -/
theorem trimChars_eq (cs : List Char) :
    trimChars cs = (cs.dropWhile isBlank).rdropWhile isBlank :=
  rfl

/-- In front of a character that is not blank nothing is trimmed. -/
theorem trimChars_cons {c : Char} (hc : isBlank c = false) (cs : List Char) :
    trimChars (c :: cs) = c :: cs.rdropWhile isBlank := by
  rw [trimChars_eq, List.dropWhile_cons_of_neg (by simp [hc])]
  induction cs using List.reverseRecOn with
  | nil => rw [List.rdropWhile_singleton, if_neg (by simp [hc]), List.rdropWhile_nil]
  | append_singleton cs b ih =>
    rw [← List.cons_append, List.rdropWhile_concat, List.rdropWhile_concat, ih]
    split_ifs
    · rfl
    · rfl

/-- What is left after trimming is nothing, or starts with a character that is not blank. -/
theorem trimChars_eq_nil_or_cons (cs : List Char) :
    trimChars cs = [] ∨
      ∃ c, ∃ r : List Char, isBlank c = false ∧ trimChars cs = c :: r.rdropWhile isBlank := by
  induction cs with
  | nil => exact Or.inl rfl
  | cons c cs ih =>
    by_cases hc : isBlank c = true
    · rwa [trimChars_eq, List.dropWhile_cons_of_pos hc, ← trimChars_eq]
    · rw [Bool.not_eq_true] at hc
      exact Or.inr ⟨c, cs, hc, trimChars_cons hc cs⟩

/-- Trimming twice is trimming once. -/
theorem trimChars_trimChars (cs : List Char) : trimChars (trimChars cs) = trimChars cs := by
  rcases trimChars_eq_nil_or_cons cs with h | ⟨c, r, hc, h⟩
  · rw [h]
    rfl
  · rw [h, trimChars_cons hc, List.rdropWhile_idempotent]

/-- Without blank characters there is nothing to trim. -/
theorem trimChars_of_forall {cs : List Char} (h : ∀ c ∈ cs, isBlank c = false) :
    trimChars cs = cs := by
  cases cs with
  | nil => rfl
  | cons c cs =>
    rw [trimChars_cons (h c List.mem_cons_self), List.rdropWhile_eq_self_iff.2]
    intro hne hblank
    rw [h _ (List.mem_cons_of_mem c (List.getLast_mem hne))] at hblank
    cases hblank

/-- Trimming adds no characters. -/
theorem length_trimChars_le (cs : List Char) : (trimChars cs).length ≤ cs.length := by
  rw [trimChars_eq]
  exact (List.rdropWhile_prefix isBlank _).length_le.trans (List.dropWhile_suffix isBlank).length_le

end Text

namespace Token

open Text

/-- No mark is a blank character. -/
theorem markKind?_of_isBlank {c : Char} (hc : isBlank c = true) : markKind? c = none := by
  unfold markKind?
  split <;> first | rfl | (revert hc; decide)

theorem scan_dropWhile_isBlank (cs : List Char) :
    scan [] (cs.dropWhile isBlank) = scan [] cs := by
  induction cs with
  | nil => rfl
  | cons c cs ih =>
    cases hc : isBlank c with
    | true => rw [List.dropWhile_cons_of_pos hc, ih, scan_blank _ (markKind?_of_isBlank hc) hc]
    | false => rw [List.dropWhile_cons_of_neg (by simp [hc])]

/-- Blank characters alone have no tokens. -/
theorem scan_of_forall_isBlank {bs : List Char} (hbs : ∀ b ∈ bs, isBlank b = true) :
    scan [] bs = [] := by
  rw [← scan_dropWhile_isBlank, List.dropWhile_eq_nil_iff.2 hbs]
  rfl

/-- Blank characters at the end change no tokens. -/
theorem scan_append_of_forall_isBlank {bs : List Char} (hbs : ∀ b ∈ bs, isBlank b = true)
    (pending cs : List Char) : scan pending (cs ++ bs) = scan pending cs := by
  induction cs generalizing pending with
  | nil =>
    have hapart : Apart bs := by
      intro b hb
      rw [isSeparator, hbs b (List.mem_of_mem_head? hb), Bool.or_true]
    rw [List.nil_append, scan_of_apart hapart, scan_of_forall_isBlank hbs, scan, List.append_nil]
  | cons c cs ih =>
    rw [List.cons_append, scan, scan]
    split
    · rw [ih]
    · split_ifs
      · rw [ih]
      · rw [ih]

theorem scan_rdropWhile_isBlank (pending cs : List Char) :
    scan pending (cs.rdropWhile isBlank) = scan pending cs := by
  have hblank : ∀ b ∈ cs.rtakeWhile isBlank, isBlank b = true := fun b hb =>
    List.mem_rtakeWhile_imp hb
  calc scan pending (cs.rdropWhile isBlank)
      = scan pending (cs.rdropWhile isBlank ++ cs.rtakeWhile isBlank) :=
        (scan_append_of_forall_isBlank hblank pending _).symm
    _ = scan pending cs := by rw [List.rdropWhile_append_rtakeWhile]

/-- A text has the tokens of the trimmed text. -/
theorem ofText_trim (s : String) : ofText (trim s) = ofText s := by
  rw [ofText, trim, String.toList_ofList, trimChars_eq, scan_rdropWhile_isBlank,
    scan_dropWhile_isBlank, ofText]

end Token

end FormulaSheet
