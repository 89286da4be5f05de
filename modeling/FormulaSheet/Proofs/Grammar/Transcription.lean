import FormulaSheet.Proofs.Grammar.Canonical
import FormulaSheet.Proofs.Token.Splitting

/-!
# What a canonical text keeps

The tree of a formula has no parentheses, and it orders the operators by their precedence. Its
canonical text still has every token of the formula that was read, in the same place. Only the
numbers of references are written anew, as the decimal digits of the column and the row they stand
for, and the only blank characters are the spaces after commas.

## Main definitions

* `Token.Transcribed`: tokens with the numbers of references in plain decimal digits.
* `Token.spelling`: a token as canonical texts write it.

## Main results

* `Grammar.transcribed_canonical`: the tokens of a derivation with canonical coordinates.
* `Grammar.text_toExpr`: the canonical text of a derivation is its tokens, spelled out.
* `Grammar.text_keeps_tokens`: what a canonical text keeps of the formula.
-/

namespace FormulaSheet

namespace Token

/-! ### Numbers of references in plain digits -/

/-- The token of a natural number in decimal digits. -/
def decimal (n : Nat) : Token :=
  ⟨.number, n.repr⟩

/-- The second tokens are the first ones with both numbers of each reference replaced by the decimal
digits of the column and the row that they denote. -/
inductive Transcribed : List Token → List Token → Prop
  | nil : Transcribed [] []
  | keep {t : Token} {ts us : List Token} (ht : t.kind ≠ .colon) (h : Transcribed ts us) :
      Transcribed (t :: ts) (t :: us)
  | reference {c r : Token} {col row : UInt64} {ts us : List Token} (hc : c.kind = .number)
      (hr : r.kind = .number) (hcol : Reader.coordinate c.text = .ok col)
      (hrow : Reader.coordinate r.text = .ok row) (h : Transcribed ts us) :
      Transcribed (colon :: c :: colon :: r :: ts)
        (colon :: decimal col.toNat :: colon :: decimal row.toNat :: us)

namespace Transcribed

variable {ts us ts' us' : List Token}

theorem append (h : Transcribed ts us) (h' : Transcribed ts' us') :
    Transcribed (ts ++ ts') (us ++ us') := by
  induction h with
  | nil => exact h'
  | keep ht _ ih => exact .keep ht ih
  | reference hc hr hcol hrow _ ih => exact .reference hc hr hcol hrow ih

/-- One token that is no colon stays as it is. -/
theorem single {t : Token} (ht : t.kind ≠ .colon) : Transcribed [t] [t] :=
  .keep ht .nil

/-- Position by position the tokens are of the same kind. -/
theorem map_kind_eq (h : Transcribed ts us) : us.map kind = ts.map kind := by
  induction h with
  | nil => rfl
  | keep _ _ ih => rw [List.map_cons, List.map_cons, ih]
  | reference hc hr _ _ _ ih => simp [decimal, hc, hr, ih]

end Transcribed

theorem Word.kind_token_ne (w : Word) {k : TokenKind} (hn : k ≠ .number) (hi : k ≠ .identifier) :
    w.token.kind ≠ k := by
  rw [Word.kind_token]
  split_ifs
  · exact hn.symm
  · exact hi.symm

/-! ### Spelling -/

/-- A token as canonical texts write it: a space follows a comma. -/
def spelling (t : Token) : String :=
  if t.kind = .comma then t.text ++ " " else t.text

theorem spelling_of_ne {t : Token} (ht : t.kind ≠ .comma) : t.spelling = t.text :=
  if_neg ht

@[simp] theorem spelling_word (w : Word) : w.token.spelling = w.text :=
  spelling_of_ne (w.kind_token_ne (by decide) (by decide))

@[simp] theorem spelling_ofOperator (op : Operator) : (ofOperator op).spelling = op.symbol :=
  rfl

@[simp] theorem spelling_comma : comma.spelling = ", " :=
  rfl

@[simp] theorem spelling_colon : colon.spelling = ":" :=
  rfl

@[simp] theorem spelling_openParen : openParen.spelling = "(" :=
  rfl

@[simp] theorem spelling_closeParen : closeParen.spelling = ")" :=
  rfl

end Token

namespace Grammar

open Token Grammar.Derivation

/-! ### The tokens of a derivation -/

theorem Coordinate.kind_token (c : Coordinate) : c.word.token.kind = .number := by
  rw [Word.token_of_isSome (by simp [c.read?_word])]

/-- A canonical coordinate is written in the decimal digits of its index. -/
theorem Coordinate.token_canonical (c : Coordinate) :
    c.canonical.word.token = decimal c.index.toNat := by
  rw [Word.token_of_isSome (by simp [c.canonical.read?_word])]
  exact congrArg (Token.mk .number) String.ofList_toList

/-- The tokens of the derivation with canonical coordinates are those of the derivation with the
numbers of its references in decimal digits. -/
theorem transcribed_canonical {σ : Symbol} (d : Derivation σ) :
    Transcribed d.tokens d.canonical.tokens := by
  induction d with
  | expr _ _ hfirst hrest | term _ _ hfirst hrest | arguments _ _ hfirst hrest =>
    exact hfirst.append hrest
  | exprEnd | termEnd | noArguments | argumentsEnd => exact .nil
  | exprNext op _ _ _ hnext hrest | termNext op _ _ _ hnext hrest =>
    exact .keep (by simp [ofOperator]) (hnext.append hrest)
  | number word => exact .single (word.kind_token_ne (by decide) (by decide))
  | reference col row =>
    have hcol := (coordinate_text_eq_ok_iff _ _).2 ⟨col, rfl, rfl⟩
    have hrow := (coordinate_text_eq_ok_iff _ _).2 ⟨row, rfl, rfl⟩
    rw [Derivation.canonical, Derivation.tokens, Derivation.tokens, col.token_canonical,
      row.token_canonical]
    exact .reference col.kind_token row.kind_token hcol hrow .nil
  | call name _ _ hargs =>
    have hclose : Transcribed [closeParen] [closeParen] := .single (by decide)
    exact .keep (name.kind_token_ne (by decide) (by decide))
      (.keep (by decide) (hargs.append hclose))
  | group _ hinner =>
    have hclose : Transcribed [closeParen] [closeParen] := .single (by decide)
    exact .keep (by decide) (hinner.append hclose)
  | argumentsNext _ _ hnext hrest => exact .keep (by decide) (hnext.append hrest)

/-! ### The text of a derivation -/

/-- What a derivation writes is its tokens with canonical coordinates, spelled out. -/
theorem chars_eq_flatMap {σ : Symbol} (d : Derivation σ) :
    d.chars = d.canonical.tokens.flatMap fun t => t.spelling.toList := by
  induction d with
  | expr _ _ hfirst hrest | term _ _ hfirst hrest | arguments _ _ hfirst hrest =>
    rw [Derivation.chars, Derivation.canonical, Derivation.tokens, List.flatMap_append, hfirst,
      hrest]
  | exprEnd | termEnd | noArguments | argumentsEnd => rfl
  | exprNext op _ _ _ hnext hrest | termNext op _ _ _ hnext hrest =>
    rw [Derivation.chars, Derivation.canonical, Derivation.tokens, List.flatMap_cons,
      List.flatMap_append, hnext, hrest, spelling_ofOperator]
  | number word => simp [Derivation.chars, Derivation.canonical, Derivation.tokens]
  | reference col row =>
    simp [Derivation.chars, Derivation.canonical, Derivation.tokens]
  | call name _ _ hargs =>
    simp [Derivation.chars, Derivation.canonical, Derivation.tokens, hargs]
  | group _ hinner =>
    simp [Derivation.chars, Derivation.canonical, Derivation.tokens, hinner]
  | argumentsNext _ _ hnext hrest =>
    simp [Derivation.chars, Derivation.canonical, Derivation.tokens, hnext, hrest]

/-- The canonical text of a derivation is its tokens with canonical coordinates, spelled out. -/
theorem text_toExpr (d : Derivation .expr) :
    Expr.text d.toExpr = String.join (d.canonical.tokens.map spelling) := by
  rw [← String.toList_inj, toList_text_toExpr, chars_eq_flatMap, String.toList_join,
    List.flatMap_map]

/-! ### Formulas -/

/-- **Canonical texts keep every token.** The tokens of the canonical text of a formula are those of
the formula, of the same kinds and with the same texts, but for the numbers of references, which are
the decimal digits of the columns and rows they denote. The text is these tokens with a space after
each comma, and there is no other blank character in it. -/
theorem text_keeps_tokens {s : String} {e : Expr} (h : Expr.parse s = .ok e) :
    Transcribed (ofText s) (ofText e.text) ∧
      (ofText e.text).map Token.kind = (ofText s).map Token.kind ∧
      e.text = String.join ((ofText e.text).map spelling) ∧
      ∀ t ∈ ofText e.text, ∀ c ∈ t.text.toList, Text.isBlank c = false := by
  obtain ⟨d, htokens, rfl⟩ := (parse_eq_ok_iff s e).1 h
  have htranscribed : Transcribed (ofText s) (ofText (Expr.text d.toExpr)) := by
    rw [← htokens, ofText_text]
    exact transcribed_canonical d
  refine ⟨htranscribed, htranscribed.map_kind_eq, ?_, ?_⟩
  · rw [ofText_text]
    exact text_toExpr d
  · exact fun t ht c hc => isBlank_of_mem_ofText ht hc

/-- The numbers of a reference lose their points and exponents, and parentheses stay. -/
theorem text_keeps_tokens_reference : ∃ e,
    Expr.parse " f( :2.0 :1e1,(1)*x( ) ) " = .ok e ∧ e.text = "f(:2:10, (1)*x())" ∧
      Transcribed (ofText " f( :2.0 :1e1,(1)*x( ) ) ") (ofText e.text) ∧
      (ofText e.text).map Token.kind = (ofText " f( :2.0 :1e1,(1)*x( ) ) ").map Token.kind ∧
      e.text = String.join ((ofText e.text).map spelling) ∧
      ∀ t ∈ ofText e.text, ∀ c ∈ t.text.toList, Text.isBlank c = false := by
  have h : (match Expr.parse " f( :2.0 :1e1,(1)*x( ) ) " with
      | .ok e => decide (e.text = "f(:2:10, (1)*x())")
      | .error _ => false) = true := by decide +kernel
  split at h
  · next e he => exact ⟨e, he, by simpa using h, text_keeps_tokens he⟩
  · cases h

end Grammar

end FormulaSheet
