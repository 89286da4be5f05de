import FormulaSheet.Proofs.Document.StoredFormula
import FormulaSheet.Proofs.Number.InputText

/-!
# Cells from their own texts

The text that is shown when a cell is edited is meant to be an input that makes the cell again. For
an empty cell, a number, and a formula it always is. A text is shown as it is, without the quotation
marks it may have been entered with, so it makes the same cell again only if it did not need them:
if it is not blank at its ends, and neither a formula, nor quoted, nor a number.

## Main definitions

* `Cell.IsBare`: the texts that need no quotation marks.

## Main results

* `Cell.ofInput_text_iff`: bare texts are those that make their own cells.
* `Cell.ofInput_inputText_iff`: when the text of a cell makes the cell again.
-/

namespace FormulaSheet.Cell

open Text

/-! ### What an input makes -/

/-- An input makes an empty cell, the cell of a formula, or a cell of plain characters. -/
theorem ofInput_cases {s : String} {k : Cell} (h : ofInput s = .ok k) :
    (trimChars s.toList = [] ∧ k = empty) ∨
      (∃ t e, trimChars s.toList = '=' :: t ∧ Expr.parse (String.ofList t) = .ok e ∧
        k = ofExpr e) ∨
      (trimChars s.toList ≠ [] ∧ (trimChars s.toList).head? ≠ some '=' ∧
        k = ofPlain (trimChars s.toList)) := by
  rw [ofInput] at h
  generalize trimChars s.toList = cs at h
  cases cs with
  | nil =>
    cases h
    exact Or.inl ⟨rfl, rfl⟩
  | cons c cs =>
    by_cases hc : c = '='
    · subst hc
      have hmap : (Expr.parse (String.ofList cs)).map ofExpr = .ok k := h
      cases hparse : Expr.parse (String.ofList cs) with
      | error e =>
        rw [hparse] at hmap
        cases hmap
      | ok e =>
        rw [hparse] at hmap
        cases hmap
        exact Or.inr (Or.inl ⟨cs, e, rfl, hparse, rfl⟩)
    · have hplain : k = ofPlain (c :: cs) := by
        split at h
        · next heq => cases heq
        · next heq => exact absurd (List.cons.inj heq).1 hc
        · cases h
          rfl
      exact Or.inr (Or.inr ⟨List.cons_ne_nil c cs, by simpa using hc, hplain⟩)

/-- Characters with nothing to trim and no equals sign in front make a plain cell. -/
theorem ofInput_of_trimmed {s : String} (hne : s.toList ≠ [])
    (hequals : s.toList.head? ≠ some '=') (htrim : trimChars s.toList = s.toList) :
    ofInput s = .ok (ofPlain s.toList) := by
  rw [ofInput, htrim]
  split
  · next heq => exact absurd heq hne
  · next heq => exact absurd (by rw [heq, List.head?_cons]) hequals
  · rfl

/-! ### Texts without quotation marks -/

/-- The texts that need no quotation marks: nothing is trimmed from them, and they are neither
formulas, nor quoted, nor numbers. -/
structure IsBare (cs : List Char) : Prop where
  ne_nil : cs ≠ []
  trimmed : trimChars cs = cs
  not_formula : cs.head? ≠ some '='
  not_quoted : unquote? cs = none
  not_number : Literal.read? cs = none

/-- The quotation marks count as two characters. -/
theorem length_of_unquote? {cs inner : List Char} (h : unquote? cs = some inner) :
    cs.length = inner.length + 2 := by
  rw [unquote?.eq_def] at h
  split at h
  · next r =>
    obtain ⟨hlast, rfl⟩ : r.getLast? = some '"' ∧ r.dropLast = inner := by simpa using h
    have hpos : 0 < r.length := List.length_pos_of_ne_nil (by rintro rfl; cases hlast)
    rw [List.length_cons, List.length_dropLast]
    omega
  · cases h

/-- Bare texts make their own cells, and all other texts make something else. -/
theorem ofInput_text_iff (t : String) : ofInput t = .ok (text t) ↔ IsBare t.toList := by
  constructor
  · intro h
    obtain ⟨-, hk⟩ | ⟨_, _, -, -, hk⟩ | ⟨hne, hequals, hk⟩ := ofInput_cases h
    · cases hk
    · cases hk
    · have hlength := length_trimChars_le t.toList
      rw [ofPlain] at hk
      split at hk
      · -- the text inside quotation marks is shorter
        next inner hinner =>
        have hshorter := length_of_unquote? hinner
        injection hk with hk
        have hinner : t.toList = inner := by rw [hk, String.toList_ofList]
        have hsame : t.toList.length = inner.length := congrArg List.length hinner
        omega
      · next hquoted =>
        split at hk
        · cases hk
        · next hnumber =>
          injection hk with hk
          have htrim : trimChars t.toList = t.toList := by
            conv_rhs => rw [hk, String.toList_ofList]
          rw [htrim] at hne hequals hquoted hnumber
          exact ⟨hne, htrim, hequals, hquoted, hnumber⟩
  · rintro ⟨hne, htrim, hequals, hquoted, hnumber⟩
    rw [ofInput_of_trimmed hne hequals htrim, ofPlain, hquoted, hnumber]
    simp

/-! ### The text for editing -/

/-- The text of a number makes the cell of that number. -/
theorem ofInput_inputText_number (x : Float) :
    ofInput (Number.inputText x) = .ok (number x) := by
  have hread := Number.read?_inputText x
  have hnumeric : ∀ c ∈ (Number.inputText x).toList, Number.IsNumeric c := fun _ hc =>
    Number.isNumeric_of_mem_inputText hc
  have htrim : trimChars (Number.inputText x).toList = (Number.inputText x).toList :=
    trimChars_of_forall fun c hc => (hnumeric c hc).isBlank_eq_false
  have hhead (a : Char) (ha : ¬ Number.IsNumeric a) :
      (Number.inputText x).toList.head? ≠ some a := fun h =>
    ha (hnumeric a (List.mem_of_mem_head? h))
  have hne : (Number.inputText x).toList ≠ [] := by
    intro hnil
    rw [hnil] at hread
    cases hread
  have hquoted : unquote? (Number.inputText x).toList = none := by
    rw [unquote?.eq_def]
    split
    · next h => exact absurd (by rw [h, List.head?_cons]) (hhead '"' (by decide))
    · rfl
  rw [ofInput_of_trimmed hne (hhead '=' (by decide)) htrim, ofPlain, hquoted, hread]

/-- **Cells from their own texts.** The text of a cell that was entered makes the same cell again,
with one exception: what was entered in quotation marks and is not bare without them. -/
theorem ofInput_inputText_iff {s : String} {k : Cell} (h : ofInput s = .ok k) :
    ofInput k.inputText = .ok k ↔
      ∀ inner, unquote? (trimChars s.toList) = some inner → IsBare inner := by
  have hunquoted (cs : List Char) (hcs : unquote? cs = none) (inner : List Char)
      (hinner : unquote? cs = some inner) : IsBare inner := by
    rw [hcs] at hinner
    cases hinner
  obtain ⟨htrim, rfl⟩ | ⟨t, e, htrim, hparse, rfl⟩ | ⟨hne, hequals, rfl⟩ := ofInput_cases h
  · rw [htrim]
    exact iff_of_true rfl (hunquoted [] rfl)
  · have htext : ofInput (ofExpr e).inputText = .ok (ofExpr e) := by
      rw [ofExpr, inputText, ofInput_equals, Grammar.parse_text hparse]
      rfl
    rw [htrim]
    exact iff_of_true htext (hunquoted _ rfl)
  · cases hquoted : unquote? (trimChars s.toList) with
    | some inner =>
      have hiff := ofInput_text_iff (String.ofList inner)
      rw [String.toList_ofList] at hiff
      rw [ofPlain, hquoted]
      simpa [inputText] using hiff
    | none =>
      refine iff_of_true ?_ (fun _ hinner => absurd hinner (Option.some_ne_none _).symm)
      rw [ofPlain, hquoted]
      cases hnumber : Literal.read? (trimChars s.toList) with
      | some x => exact ofInput_inputText_number x
      | none =>
        have hbare : IsBare (String.ofList (trimChars s.toList)).toList := by
          rw [String.toList_ofList]
          exact ⟨hne, trimChars_trimChars _, hequals, hquoted, hnumber⟩
        exact (ofInput_text_iff _).2 hbare

/-- A quoted text that needs no quotation marks is entered again without them. -/
theorem ofInput_inputText_quotedText :
    ofInput " \"total\" " = .ok (text "total") ∧ ofInput (text "total").inputText =
      .ok (text "total") := by
  have h : ofInput " \"total\" " = .ok (text "total") := rfl
  have hquoted : unquote? (trimChars " \"total\" ".toList) = some "total".toList := by
    decide +kernel
  have hbare : IsBare "total".toList := by
    constructor <;> decide +kernel
  refine ⟨h, (ofInput_inputText_iff h).2 fun inner hinner => ?_⟩
  rw [hquoted] at hinner
  cases hinner
  exact hbare

/-- Without its quotation marks a quoted number becomes a number. -/
theorem ofInput_inputText_quotedNumber :
    ofInput "\"42\"" = .ok (text "42") ∧ ofInput (text "42").inputText = .ok (number 42) :=
  ⟨rfl, rfl⟩

end FormulaSheet.Cell
