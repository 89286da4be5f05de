import FormulaSheet.Operator
import FormulaSheet.Token
import Mathlib.Tactic.Common

/-!
# Lexemes

Every token of a formula is a word or one of the marks. A word is read back as one token wherever a
separator or the end of the formula follows it, so lexemes written one after the other are read back
as they were, as long as no two words touch.

## Main definitions

* `Token.Word`: the words.
* `Token.IsLexeme`: the tokens that can come out of a formula.
* `Token.Apart`: characters in front of which a word ends.

## Main results

* `Token.isLexeme_of_mem_ofText`: the tokens of a formula are lexemes.
* `Token.scan_word_append`: a word is read back as one token.
-/

namespace FormulaSheet.Token

/-! ### Words and marks -/

/-- At least one character, none of which ends a word. -/
@[ext]
structure Word where
  chars : List Char
  ne_nil : chars ≠ []
  not_isSeparator : ∀ c ∈ chars, isSeparator c = false

namespace Word

/-- The text of a word. -/
def text (w : Word) : String :=
  String.ofList w.chars

/-- The token of a word. -/
def token (w : Word) : Token :=
  ofWord w.chars

@[simp] theorem text_token (w : Word) : w.token.text = w.text :=
  rfl

@[simp] theorem toList_text (w : Word) : w.text.toList = w.chars :=
  String.toList_ofList

theorem eq_of_text_eq {w v : Word} (h : w.text = v.text) : w = v := by
  ext1
  rw [← toList_text, h, toList_text]

theorem token_of_isSome {w : Word} (h : (Literal.read? w.chars).isSome = true) :
    w.token = ⟨.number, w.text⟩ := by
  simp [token, ofWord, h, text]

theorem token_of_eq_none {w : Word} (h : Literal.read? w.chars = none) :
    w.token = ⟨.identifier, w.text⟩ := by
  simp [token, ofWord, h, text]

end Word

/-- The token of a comma. -/
def comma : Token := ⟨.comma, ","⟩

/-- The token of a colon. -/
def colon : Token := ⟨.colon, ":"⟩

/-- The token of an opening parenthesis. -/
def openParen : Token := ⟨.openParen, "("⟩

/-- The token of a closing parenthesis. -/
def closeParen : Token := ⟨.closeParen, ")"⟩

/-- The token of an operator. -/
def ofOperator (op : Operator) : Token := ⟨.operator, op.symbol⟩

/-- The tokens that can come out of a formula: words and marks, each with its own text. -/
inductive IsLexeme : Token → Prop where
  | word (w : Word) : IsLexeme w.token
  | comma : IsLexeme comma
  | colon : IsLexeme colon
  | openParen : IsLexeme openParen
  | closeParen : IsLexeme closeParen
  | operator (op : Operator) : IsLexeme (ofOperator op)

theorem Word.kind_token (w : Word) :
    w.token.kind = if (Literal.read? w.chars).isSome then .number else .identifier :=
  rfl

/-- A lexeme of kind number is a word that is a literal. -/
theorem IsLexeme.exists_number {t : Token} (ht : IsLexeme t) (hk : t.kind = .number) :
    ∃ w : Word, (Literal.read? w.chars).isSome = true ∧ t = w.token := by
  cases ht with
  | word w =>
    refine ⟨w, ?_, rfl⟩
    rw [Word.kind_token] at hk
    split_ifs at hk with hw
    exact hw
  | _ => cases hk

theorem IsLexeme.eq_colon {t : Token} (ht : IsLexeme t) (hk : t.kind = .colon) :
    t = Token.colon := by
  cases ht with
  | word w =>
    rw [Word.kind_token] at hk
    split_ifs at hk
  | colon => rfl
  | _ => cases hk

theorem IsLexeme.eq_openParen {t : Token} (ht : IsLexeme t) (hk : t.kind = .openParen) :
    t = Token.openParen := by
  cases ht with
  | word w =>
    rw [Word.kind_token] at hk
    split_ifs at hk
  | openParen => rfl
  | _ => cases hk

/-- A lexeme of kind operator is the mark of one. -/
theorem IsLexeme.exists_operator {t : Token} (ht : IsLexeme t) (hk : t.kind = .operator) :
    ∃ op, t = ofOperator op := by
  cases ht with
  | word w =>
    rw [Word.kind_token] at hk
    split_ifs at hk
  | operator op => exact ⟨op, rfl⟩
  | _ => cases hk

/-! ### The tokens of a formula are lexemes -/

theorem isLexeme_mark {c : Char} {k : TokenKind} (h : markKind? c = some k) :
    IsLexeme ⟨k, String.singleton c⟩ := by
  unfold markKind? at h
  split at h <;> cases h
  · exact .comma
  · exact .colon
  · exact .openParen
  · exact .closeParen
  · exact .operator .add
  · exact .operator .sub
  · exact .operator .mul
  · exact .operator .div

theorem isLexeme_of_mem_ofPending {w : List Char} (hw : ∀ c ∈ w, isSeparator c = false)
    {t : Token} (ht : t ∈ ofPending w) : IsLexeme t := by
  rw [ofPending] at ht
  split_ifs at ht with hnil
  · cases ht
  · obtain rfl := List.mem_singleton.1 ht
    exact .word ⟨w, hnil, hw⟩

private theorem isLexeme_of_mem_scan {pending cs : List Char}
    (hp : ∀ c ∈ pending, isSeparator c = false) {t : Token} (ht : t ∈ scan pending cs) :
    IsLexeme t := by
  have hpending : ∀ {p : List Char}, (∀ c ∈ p, isSeparator c = false) →
      ∀ t ∈ ofPending p.reverse, IsLexeme t := by
    intro p hp t ht
    exact isLexeme_of_mem_ofPending (fun c hc => hp c (List.mem_reverse.1 hc)) ht
  induction cs generalizing pending with
  | nil => exact hpending hp t ht
  | cons c cs ih =>
    rw [scan] at ht
    split at ht
    · next k hk =>
      rcases List.mem_append.1 ht with ht | ht
      · exact hpending hp t ht
      · rcases List.mem_cons.1 ht with rfl | ht
        · exact isLexeme_mark hk
        · exact ih (by simp) ht
    · next hk =>
      split_ifs at ht with hc
      · rcases List.mem_append.1 ht with ht | ht
        · exact hpending hp t ht
        · exact ih (by simp) ht
      · refine ih ?_ ht
        intro a ha
        rcases List.mem_cons.1 ha with rfl | ha
        · simp [isSeparator, hk, hc]
        · exact hp a ha

/-- The tokens of a formula are lexemes. -/
theorem isLexeme_of_mem_ofText {s : String} {t : Token} (ht : t ∈ ofText s) : IsLexeme t :=
  isLexeme_of_mem_scan (by simp) ht

/-! ### Reading lexemes back -/

/-- A word ends in front of these characters. -/
def Apart (cs : List Char) : Prop :=
  ∀ c ∈ cs.head?, isSeparator c = true

theorem apart_nil : Apart [] := by
  intro c hc
  cases hc

theorem apart_cons {c : Char} (cs : List Char) (h : isSeparator c = true) : Apart (c :: cs) := by
  intro a ha
  obtain rfl : c = a := by simpa using ha
  exact h

/-- A mark is read back as one token. -/
theorem scan_mark (cs : List Char) {c : Char} {k : TokenKind} (h : markKind? c = some k) :
    scan [] (c :: cs) = ⟨k, String.singleton c⟩ :: scan [] cs := by
  simp [scan, h, ofPending]

theorem scan_comma (cs : List Char) : scan [] (',' :: cs) = comma :: scan [] cs :=
  scan_mark cs rfl

theorem scan_colon (cs : List Char) : scan [] (':' :: cs) = colon :: scan [] cs :=
  scan_mark cs rfl

theorem scan_openParen (cs : List Char) : scan [] ('(' :: cs) = openParen :: scan [] cs :=
  scan_mark cs rfl

theorem scan_closeParen (cs : List Char) : scan [] (')' :: cs) = closeParen :: scan [] cs :=
  scan_mark cs rfl

/-- An operator is read back as one token. -/
theorem scan_operator (op : Operator) (cs : List Char) :
    scan [] (op.symbol.toList ++ cs) = ofOperator op :: scan [] cs := by
  cases op <;> exact scan_mark cs rfl

/-- Blank characters between words are skipped. -/
theorem scan_blank (cs : List Char) {c : Char} (hm : markKind? c = none)
    (h : Text.isBlank c = true) : scan [] (c :: cs) = scan [] cs := by
  simp [scan, hm, h, ofPending]

/-- Any character that is no separator is one more character of a word. -/
theorem scan_cons_of_not_isSeparator {c : Char} (hc : isSeparator c = false)
    (pending cs : List Char) : scan pending (c :: cs) = scan (c :: pending) cs := by
  obtain ⟨hm, hb⟩ : markKind? c = none ∧ Text.isBlank c = false := by
    simpa [isSeparator] using hc
  rw [scan, hm]
  simp only [hb, Bool.false_eq_true, if_false]

/-- The characters of a word are gathered. -/
theorem scan_append_of_not_isSeparator {w : List Char} (hw : ∀ c ∈ w, isSeparator c = false)
    (pending cs : List Char) : scan pending (w ++ cs) = scan (w.reverse ++ pending) cs := by
  induction w generalizing pending with
  | nil => rfl
  | cons c w ih =>
    rw [List.cons_append, scan_cons_of_not_isSeparator (hw c (by simp)),
      ih fun a ha => hw a (by simp [ha])]
    simp

/-- In front of a separator the gathered word ends. -/
theorem scan_of_apart {cs : List Char} (h : Apart cs) (pending : List Char) :
    scan pending cs = ofPending pending.reverse ++ scan [] cs := by
  cases cs with
  | nil => simp [scan, ofPending]
  | cons c cs =>
    have hc := h c (by simp)
    rw [scan, scan]
    split
    · simp [ofPending]
    · next hm =>
      have hb : Text.isBlank c = true := by simpa [isSeparator, hm] using hc
      simp [hb, ofPending]

/-- A word in front of a separator is read back as one token. -/
theorem scan_word_append (w : Word) {cs : List Char} (h : Apart cs) :
    scan [] (w.chars ++ cs) = w.token :: scan [] cs := by
  rw [scan_append_of_not_isSeparator w.not_isSeparator, scan_of_apart h]
  simp [ofPending, w.ne_nil, Word.token]

end FormulaSheet.Token
