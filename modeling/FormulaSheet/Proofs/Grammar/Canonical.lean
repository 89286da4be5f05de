import FormulaSheet.Proofs.Grammar.Recognition
import FormulaSheet.Proofs.Number.Natural

/-!
# Canonical texts

The canonical text of an expression is what a derivation writes when it is spelled out, with its
coordinates in decimal digits. The tokens of that text are those of the same derivation with
canonical coordinates, which has the same expression. So the canonical text is read as the
expression it belongs to, with the same texts at all nodes.

## Main definitions

* `Coordinate.canonical`: a coordinate in decimal digits.
* `Derivation.canonical`: a derivation with canonical coordinates.
* `Derivation.chars`: the characters that a derivation writes.

## Main results

* `Grammar.scan_chars`: the characters of a derivation are read as its tokens.
* `Grammar.parse_text`: the canonical text of an expression that was read is read as that
  expression. -/

namespace FormulaSheet.Grammar

open Token Grammar.Derivation

/-! ### Canonical coordinates -/

theorem isSeparator_of_isDigit {c : Char} (h : c.isDigit = true) : isSeparator c = false := by
  obtain ⟨k, hk, rfl⟩ := Literal.exists_digitChar h
  interval_cases k <;> decide

/-- The word of the decimal digits of a natural number. -/
def decimalWord (n : Nat) : Word where
  chars := n.repr.toList
  ne_nil := by
    rw [Nat.toList_repr]
    exact Nat.toDigits_ne_nil
  not_isSeparator c hc := by
    rw [Nat.toList_repr] at hc
    exact isSeparator_of_isDigit (Nat.isDigit_of_mem_toDigits (by decide) (by decide) hc)

theorem Coordinate.toNat_index (c : Coordinate) : c.index.toNat = min c.number (2 ^ 64 - 1) := by
  rw [Coordinate.index, UInt64.toNat_ofNat']
  omega

theorem Coordinate.isSignificant (c : Coordinate) : Binary64.IsSignificant c.number :=
  Binary64.isSignificant_of_natural? ((Binary64.natural?_eq_some_iff _ _).2 c.rational?_value)

/-- The coordinate with its index in decimal digits. It is the same number: the largest index is
rounded to `2 ^ 64`, the number it stands for. -/
def Coordinate.canonical (c : Coordinate) : Coordinate where
  word := decimalWord c.index.toNat
  value := Binary64.nearest false c.index.toNat 1
  number := c.number
  read?_word := Literal.read?_repr _
  rational?_value := by
    rw [← Binary64.natural?_eq_some_iff, c.toNat_index]
    exact Binary64.natural?_nearest_min c.number_le c.isSignificant
  number_le := c.number_le

/-! ### Canonical derivations -/

/-- The derivation with canonical coordinates. -/
def Derivation.canonical : {σ : Symbol} → Derivation σ → Derivation σ
  | _, expr first rest => expr first.canonical rest.canonical
  | _, exprEnd => exprEnd
  | _, exprNext op hop next rest => exprNext op hop next.canonical rest.canonical
  | _, term first rest => term first.canonical rest.canonical
  | _, termEnd => termEnd
  | _, termNext op hop next rest => termNext op hop next.canonical rest.canonical
  | _, number word value hword => number word value hword
  | _, reference col row => reference col.canonical row.canonical
  | _, call name hname args => call name hname args.canonical
  | _, group inner => group inner.canonical
  | _, noArguments => noArguments
  | _, arguments first rest => arguments first.canonical rest.canonical
  | _, argumentsEnd => argumentsEnd
  | _, argumentsNext next rest => argumentsNext next.canonical rest.canonical

/-- Canonical coordinates change no meaning. -/
theorem fold_canonical {α : Type} (A : Algebra α) {σ : Symbol} (d : Derivation σ) :
    d.canonical.fold A = d.fold A := by
  induction d with
  | reference col row => rfl
  | _ => simp_all [Derivation.canonical, Derivation.fold]

/-- The characters that a derivation writes. -/
def Derivation.chars : {σ : Symbol} → Derivation σ → List Char
  | _, expr first rest => first.chars ++ rest.chars
  | _, exprEnd => []
  | _, exprNext op _ next rest => op.symbol.toList ++ (next.chars ++ rest.chars)
  | _, term first rest => first.chars ++ rest.chars
  | _, termEnd => []
  | _, termNext op _ next rest => op.symbol.toList ++ (next.chars ++ rest.chars)
  | _, number word _ _ => word.chars
  | _, reference col row =>
    ':' :: (col.canonical.word.chars ++ ':' :: row.canonical.word.chars)
  | _, call name _ args => name.chars ++ '(' :: (args.chars ++ [')'])
  | _, group inner => '(' :: (inner.chars ++ [')'])
  | _, noArguments => []
  | _, arguments first rest => first.chars ++ rest.chars
  | _, argumentsEnd => []
  | _, argumentsNext next rest => ',' :: ' ' :: (next.chars ++ rest.chars)

/-- The text of the meaning of a derivation, or what it adds to the text it continues. -/
def Writes : {σ : Symbol} → Meaning Expr σ → List Char → Prop
  | .expr, e, cs | .term, e, cs | .factor, e, cs => e.text.toList = cs
  | .exprRest, f, cs | .termRest, f, cs => ∀ e, (f e).text.toList = e.text.toList ++ cs
  | .arguments, es, cs => (Expr.joinTexts es).toList = cs
  | .argumentsRest, es, cs => ∀ e, (Expr.joinTexts (e :: es)).toList = e.text.toList ++ cs

/-- The canonical text of an expression is what its derivation writes. -/
theorem writes_chars {σ : Symbol} (d : Derivation σ) : Writes d.toExpr d.chars := by
  induction d with
  | expr first rest hfirst hrest | term first rest hfirst hrest =>
    exact (hrest _).trans (congrArg (· ++ rest.chars) hfirst)
  | exprEnd | termEnd => exact fun e => (List.append_nil e.text.toList).symm
  | exprNext op _ next rest hnext hrest | termNext op _ next rest hnext hrest =>
    intro e
    have hbinary : (Expr.ofBinary op e next.toExpr).text.toList =
        e.text.toList ++ (op.symbol.toList ++ next.chars) := by
      simp only [Expr.ofBinary, Expr.text, String.toList_append, List.append_assoc]
      exact congrArg (fun cs => e.text.toList ++ (op.symbol.toList ++ cs)) hnext
    refine (hrest _).trans ((congrArg (· ++ rest.chars) hbinary).trans ?_)
    simp [Derivation.chars]
  | number word => exact Word.toList_text word
  | reference col row =>
    change (CellRef.text ⟨col.index, row.index⟩).toList = _
    simp [CellRef.text, Derivation.chars, Coordinate.canonical, decimalWord]
  | call name _ args hargs =>
    change (name.text ++ "(" ++ Expr.joinTexts args.toExpr ++ ")").toList = _
    rw [String.toList_append, String.toList_append, String.toList_append, hargs]
    simp [Derivation.chars]
  | group inner hinner =>
    change (Expr.parenthesized inner.toExpr).text.toList = _
    rw [Expr.parenthesized, Expr.text_withText, String.toList_append, String.toList_append, hinner]
    rfl
  | noArguments => rfl
  | arguments first rest hfirst hrest =>
    exact (hrest first.toExpr).trans (congrArg (· ++ rest.chars) hfirst)
  | argumentsEnd => exact fun e => (List.append_nil e.text.toList).symm
  | argumentsNext next rest hnext hrest =>
    intro e
    change (e.text ++ ", " ++ Expr.joinTexts (next.toExpr :: rest.toExpr)).toList = _
    rw [String.toList_append, String.toList_append, hrest next.toExpr, hnext]
    simp [Derivation.chars]

theorem toList_text_toExpr (d : Derivation .expr) : (Expr.text d.toExpr).toList = d.chars :=
  writes_chars d

/-! ### Reading what was written -/

theorem apart_operator (op : Operator) (cs : List Char) : Apart (op.symbol.toList ++ cs) := by
  cases op <;> exact apart_cons _ rfl

/-- The symbols of repetitions. -/
def Symbol.IsRepetition : Symbol → Prop
  | .exprRest | .termRest | .argumentsRest => True
  | .expr | .term | .factor | .arguments => False

/-- What a repetition writes keeps apart what it continues. -/
theorem apart_chars {σ : Symbol} (d : Derivation σ) (hσ : σ.IsRepetition) {cs : List Char}
    (h : Apart cs) : Apart (d.chars ++ cs) := by
  cases d with
  | exprEnd | termEnd | argumentsEnd => exact h
  | exprNext op | termNext op =>
    rw [Derivation.chars, List.append_assoc]
    exact apart_operator op _
  | argumentsNext => exact apart_cons _ rfl
  | _ => cases hσ

/-- The characters of a derivation are read as the tokens of the derivation with canonical
coordinates, in front of characters that keep a word apart. -/
theorem scan_chars {σ : Symbol} (d : Derivation σ) {cs : List Char} (h : Apart cs) :
    scan [] (d.chars ++ cs) = d.canonical.tokens ++ scan [] cs := by
  induction d generalizing cs with
  | expr first rest hfirst hrest | term first rest hfirst hrest
  | arguments first rest hfirst hrest =>
    have hrepetition := apart_chars rest trivial h
    rw [Derivation.chars, List.append_assoc, hfirst hrepetition, hrest h]
    simp [Derivation.canonical, Derivation.tokens]
  | exprEnd | termEnd | noArguments | argumentsEnd => rfl
  | exprNext op _ next rest hnext hrest | termNext op _ next rest hnext hrest =>
    have hrepetition := apart_chars rest trivial h
    rw [Derivation.chars, List.append_assoc, List.append_assoc, scan_operator, hnext hrepetition,
      hrest h]
    simp [Derivation.canonical, Derivation.tokens]
  | number word => exact scan_word_append word h
  | reference col row =>
    have hcolon : Apart (':' :: (row.canonical.word.chars ++ cs)) := apart_cons _ rfl
    rw [Derivation.chars, List.cons_append, List.append_assoc, List.cons_append]
    rw [scan_colon, scan_word_append _ hcolon, scan_colon, scan_word_append _ h]
    rfl
  | call name hname args hargs =>
    have hopen : Apart ('(' :: (args.chars ++ ')' :: cs)) := apart_cons _ rfl
    have hclose : Apart (')' :: cs) := apart_cons _ rfl
    have hchars : (call name hname args).chars ++ cs =
        name.chars ++ '(' :: (args.chars ++ ')' :: cs) := by
      simp [Derivation.chars]
    rw [hchars, scan_word_append name hopen, scan_openParen, hargs hclose, scan_closeParen]
    simp [Derivation.canonical, Derivation.tokens]
  | group inner hinner =>
    have hclose : Apart (')' :: cs) := apart_cons _ rfl
    have hchars : (group inner).chars ++ cs = '(' :: (inner.chars ++ ')' :: cs) := by
      simp [Derivation.chars]
    rw [hchars, scan_openParen, hinner hclose, scan_closeParen]
    simp [Derivation.canonical, Derivation.tokens]
  | argumentsNext next rest hnext hrest =>
    have hchars : (argumentsNext next rest).chars ++ cs =
        ',' :: ' ' :: (next.chars ++ (rest.chars ++ cs)) := by
      simp [Derivation.chars]
    have hrepetition := apart_chars rest trivial h
    rw [hchars, scan_comma, scan_blank _ rfl (by decide), hnext hrepetition, hrest h]
    simp [Derivation.canonical, Derivation.tokens]

/-- The tokens of a canonical text are those of the canonical derivation. -/
theorem ofText_text (d : Derivation .expr) :
    Token.ofText (Expr.text d.toExpr) = d.canonical.tokens := by
  have hscan := scan_chars d apart_nil
  rw [List.append_nil] at hscan
  rw [Token.ofText, toList_text_toExpr, hscan]
  exact List.append_nil _

/-! ### The canonical text parses back -/

/-- The canonical text of the expression of a derivation is read as that expression. -/
theorem parse_text_toExpr (d : Derivation .expr) :
    Expr.parse (Expr.text d.toExpr) = .ok d.toExpr :=
  (parse_eq_ok_iff _ _).2 ⟨d.canonical, (ofText_text d).symm, fold_canonical _ d⟩

/-- **Canonical texts parse back.** The canonical text of an expression that was read is read as
that expression, with the same kind and the same text at every node. -/
theorem parse_text {s : String} {e : Expr} (h : Expr.parse s = .ok e) :
    Expr.parse e.text = .ok e := by
  obtain ⟨d, -, rfl⟩ := (parse_eq_ok_iff s e).1 h
  exact parse_text_toExpr d

/-- A coordinate beyond `2 ^ 53` is rounded, and `2 ^ 64` stands for the largest index. -/
theorem parse_text_rounded : ∃ e,
    Expr.parse " f( x(:9007199254740993:18446744073709551616),(1 - 2e0) *3 )" = .ok e ∧
      e.text = "f(x(:9007199254740992:18446744073709551615), (1-2e0)*3)" ∧
      Expr.parse e.text = .ok e := by
  have h : (match Expr.parse
        " f( x(:9007199254740993:18446744073709551616),(1 - 2e0) *3 )" with
      | .ok e => decide (e.text = "f(x(:9007199254740992:18446744073709551615), (1-2e0)*3)")
      | .error _ => false) = true := by decide +kernel
  split at h
  · next e he => exact ⟨e, he, by simpa using h, parse_text he⟩
  · cases h

end FormulaSheet.Grammar
