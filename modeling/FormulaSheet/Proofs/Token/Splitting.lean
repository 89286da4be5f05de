import FormulaSheet.Proofs.Token.Blanks

/-!
# Where a formula splits

A formula splits at every separator. What stands in front of it and what follows have their tokens
independently of each other, a mark is a token between them, and a blank character leaves nothing.
What holds no separator is one token. So a formula loses nothing but its blank characters, and its
tokens are read back wherever blank characters keep them apart.

## Main definitions

* `Token.marks`: the characters that are tokens by themselves.
* `Token.ofSeparator`: the tokens of a separator.

## Main results

* `Token.scan_append_separator`: a separator splits what is still to be read.
* `Token.flatMap_scan`: the characters of the tokens are those that are not blank.
* `Token.ofText_intercalate`: lexemes with spaces between them are read back.
* `Token.ofText_splits`: all of this for texts.
-/

namespace FormulaSheet.Token

open Text

/-! ### Separators -/

/-- The characters that are tokens by themselves: the delimiters and the operators. -/
def marks : List Char :=
  [',', ':', '(', ')', '+', '-', '*', '/']

/-- The tokens of a separator: a mark is one, a blank character has none. -/
def ofSeparator (c : Char) : List Token :=
  match markKind? c with
  | some kind => [⟨kind, String.singleton c⟩]
  | none => []

theorem isSome_markKind?_iff (c : Char) : (markKind? c).isSome = true ↔ c ∈ marks := by
  unfold markKind?
  split <;> simp_all [marks]

/-- The separators are the marks and the blank characters. -/
theorem isSeparator_iff (c : Char) : isSeparator c = true ↔ c ∈ marks ∨ isBlank c = true := by
  rw [isSeparator, Bool.or_eq_true, isSome_markKind?_iff]

/-- A mark is no blank character. -/
theorem isBlank_of_markKind? {c : Char} {k : TokenKind} (h : markKind? c = some k) :
    isBlank c = false := by
  by_contra hc
  rw [markKind?_of_isBlank (by simpa using hc)] at h
  cases h

/-! ### Splitting -/

/-- A separator ends the pending word and is read by itself. -/
theorem scan_separator {c : Char} (hc : isSeparator c = true) (pending cs : List Char) :
    scan pending (c :: cs) = ofPending pending.reverse ++ (ofSeparator c ++ scan [] cs) := by
  rw [scan, ofSeparator]
  cases hk : markKind? c with
  | some kind => rfl
  | none =>
    have hblank : isBlank c = true := by simpa [isSeparator, hk] using hc
    exact if_pos hblank

/-- A separator splits what is still to be read: what follows it does not depend on the word that
was pending. -/
theorem scan_append_separator {c : Char} (hc : isSeparator c = true) (pending cs ds : List Char) :
    scan pending (cs ++ c :: ds) = scan pending cs ++ (ofSeparator c ++ scan [] ds) := by
  induction cs generalizing pending with
  | nil => exact scan_separator hc pending ds
  | cons a cs ih =>
    rw [List.cons_append]
    cases ha : isSeparator a with
    | true => rw [scan_separator ha, scan_separator ha, ih, List.append_assoc, List.append_assoc]
    | false => rw [scan_cons_of_not_isSeparator ha, scan_cons_of_not_isSeparator ha, ih]

/-! ### What the tokens hold -/

theorem flatMap_ofPending (w : List Char) :
    (ofPending w).flatMap (fun t => t.text.toList) = w := by
  rw [ofPending]
  split_ifs with hw
  · exact hw.symm
  · simp [ofWord]

/-- A separator that is not blank is the text of its token. -/
theorem flatMap_ofSeparator {c : Char} (hc : isSeparator c = true) :
    (ofSeparator c).flatMap (fun t => t.text.toList) = [c].filter (fun a => !isBlank a) := by
  rw [ofSeparator]
  cases hk : markKind? c with
  | some kind => simp [isBlank_of_markKind? hk]
  | none =>
    have hblank : isBlank c = true := by simpa [isSeparator, hk] using hc
    simp [hblank]

/-- The tokens hold the pending word and all that is not blank, in order. -/
theorem flatMap_scan (pending cs : List Char) :
    (scan pending cs).flatMap (fun t => t.text.toList) =
      pending.reverse ++ cs.filter fun c => !isBlank c := by
  induction cs generalizing pending with
  | nil =>
    rw [scan, flatMap_ofPending]
    simp
  | cons c cs ih =>
    cases hc : isSeparator c with
    | true =>
      rw [scan_separator hc, List.flatMap_append, List.flatMap_append, flatMap_ofPending,
        flatMap_ofSeparator hc, ih, List.reverse_nil, List.nil_append, ← List.filter_append,
        List.singleton_append]
    | false =>
      have hblank : isBlank c = false := (Bool.or_eq_false_iff.1 hc).2
      rw [scan_cons_of_not_isSeparator hc, ih]
      simp [hblank]

/-- No token of a formula holds a blank character. -/
theorem isBlank_of_mem_ofText {s : String} {t : Token} (ht : t ∈ ofText s) {c : Char}
    (hc : c ∈ t.text.toList) : isBlank c = false := by
  have hmem : c ∈ (ofText s).flatMap fun t => t.text.toList := List.mem_flatMap.2 ⟨t, ht, hc⟩
  rw [ofText, flatMap_scan, List.reverse_nil, List.nil_append] at hmem
  simpa using (List.mem_filter.1 hmem).2

/-! ### Reading tokens back -/

theorem ofText_word (w : Word) : ofText w.text = [w.token] := by
  have hscan := scan_word_append w apart_nil
  rw [List.append_nil] at hscan
  rw [ofText, Word.toList_text, hscan]
  rfl

/-- The text of a lexeme is read as that lexeme. -/
theorem IsLexeme.ofText_text {t : Token} (ht : IsLexeme t) : ofText t.text = [t] := by
  cases ht with
  | word w => exact ofText_word w
  | comma | colon | openParen | closeParen => rfl
  | operator op => cases op <;> rfl

/-- A text splits at a separator. -/
theorem ofText_append_separator {c : Char} (hc : isSeparator c = true) (a b : String) :
    ofText (a ++ String.singleton c ++ b) = ofText a ++ ofSeparator c ++ ofText b := by
  simp [ofText, scan_append_separator hc]

/-- Lexemes with a space between any two are read back. -/
theorem ofText_intercalate {ts : List Token} (hts : ∀ t ∈ ts, IsLexeme t) :
    ofText (" ".intercalate (ts.map text)) = ts := by
  induction ts with
  | nil => rfl
  | cons t ts ih =>
    have ht : ofText t.text = [t] := (hts t List.mem_cons_self).ofText_text
    have hrest := ih fun u hu => hts u (List.mem_cons_of_mem t hu)
    cases ts with
    | nil => simpa using ht
    | cons u ts =>
      have hspace : ofSeparator ' ' = [] := rfl
      rw [List.map_cons, List.map_cons, String.intercalate_cons_cons, ← List.map_cons]
      have hsplit := ofText_append_separator (c := ' ') rfl t.text
        (" ".intercalate ((u :: ts).map text))
      rw [hrest, ht, hspace] at hsplit
      exact hsplit

/-! ### Texts -/

/-- **A formula splits exactly at its separators.** Around a separator both sides have their tokens
as if they stood alone, and what holds no separator is one token, a number where it is a literal. So
the texts of the tokens make up the formula without its blank characters, and with single spaces
between them they are read as the same tokens. -/
theorem ofText_splits :
    (∀ (a b : String) (c : Char), c ∈ marks ∨ isBlank c = true →
        ofText (a ++ String.singleton c ++ b) = ofText a ++ ofSeparator c ++ ofText b) ∧
      (∀ w : String, w ≠ "" → (∀ c ∈ w.toList, ¬(c ∈ marks ∨ isBlank c = true)) →
        ofText w =
          [⟨if (Literal.read? w.toList).isSome then .number else .identifier, w⟩]) ∧
      (∀ s : String, String.join ((ofText s).map text) =
        String.ofList (s.toList.filter fun c => !isBlank c)) ∧
      ∀ s : String, ofText (" ".intercalate ((ofText s).map text)) = ofText s := by
  refine ⟨?_, ?_, ?_, ?_⟩
  · intro a b c hc
    exact ofText_append_separator ((isSeparator_iff c).2 hc) a b
  · intro w hne hw
    let word : Word := ⟨w.toList, by simpa using hne, fun c hc => by
      simpa using mt (isSeparator_iff c).1 (hw c hc)⟩
    have hword : word.text = w := String.ofList_toList
    have htoken := ofText_word word
    rw [hword] at htoken
    rw [htoken, Word.token, ofWord, String.ofList_toList]
  · intro s
    rw [← String.toList_inj, String.toList_join, String.toList_ofList, List.flatMap_map, ofText,
      flatMap_scan, List.reverse_nil, List.nil_append]
  · exact fun s => ofText_intercalate fun _ => isLexeme_of_mem_ofText

/-- A minus sign splits a word that would be a literal as a whole, and a word without a separator is
read as a whole. -/
theorem ofText_splits_literal :
    ('-' ∈ marks ∨ isBlank '-' = true) ∧
      ofText ("1e" ++ String.singleton '-' ++ "3") =
        ofText "1e" ++ ofSeparator '-' ++ ofText "3" ∧
      "infinity" ≠ "" ∧ (∀ c ∈ "infinity".toList, ¬(c ∈ marks ∨ isBlank c = true)) ∧
      ofText "infinity" =
        [⟨if (Literal.read? "infinity".toList).isSome then .number else .identifier,
          "infinity"⟩] := by
  have hminus : '-' ∈ marks ∨ isBlank '-' = true := by decide
  have hword : ∀ c ∈ "infinity".toList, ¬(c ∈ marks ∨ isBlank c = true) := by
    have hall : ("infinity".toList.all fun c => !isSeparator c) = true := by decide
    intro c hc
    rw [← isSeparator_iff]
    simpa using List.all_eq_true.1 hall c hc
  exact ⟨hminus, ofText_splits.1 "1e" "3" '-' hminus, by decide, hword,
    ofText_splits.2.1 "infinity" (by decide) hword⟩

end FormulaSheet.Token
