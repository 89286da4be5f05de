import FormulaSheet.Proofs.Grammar.Completeness

/-!
# Everything read is derivable

What the reader knows accounts for all tokens it has taken: each item of an open region stands for
the tokens of a piece, each open bracket for the tokens in front of it, the arguments that are
complete for theirs, and what has to come next for the tokens of the piece that was begun. Every
token keeps this up, and at the end the items of the one region are those of a derivation.

## Main definitions

* `Grammar.Begun`: the tokens of a piece that is not complete.
* `Grammar.Opened`: the tokens of all open regions.
* `Grammar.HasRead`: the tokens that a reader has taken.

## Main results

* `Grammar.HasRead.step`: one token more.
* `Grammar.exists_derivation_of_ofTokens`: what is read is derivable.
-/

namespace FormulaSheet.Grammar

open Reader Token Grammar.Derivation

/-! ### Arguments -/

/-- The tokens of complete arguments, each with the comma after it. -/
def argumentTokens (args : List (Derivation .expr)) : List Token :=
  args.flatMap fun d => d.tokens ++ [Token.comma]

theorem exists_argumentsRest (last : Derivation .expr) (args : List (Derivation .expr)) :
    ∃ d : Derivation .argumentsRest,
      d.tokens = Token.comma :: (argumentTokens args ++ last.tokens) ∧
        d.toExpr = args.map toExpr ++ [last.toExpr] := by
  induction args with
  | nil =>
    refine ⟨.argumentsNext last .argumentsEnd, ?_, rfl⟩
    simp [Derivation.tokens, argumentTokens]
  | cons first args ih =>
    obtain ⟨d, htokens, hexpr⟩ := ih
    refine ⟨.argumentsNext first d, ?_, congrArg (first.toExpr :: ·) hexpr⟩
    rw [Derivation.tokens, htokens]
    simp [argumentTokens]

/-- Complete arguments and a last one are derivable together. -/
theorem exists_arguments (last : Derivation .expr) (args : List (Derivation .expr)) :
    ∃ d : Derivation .arguments, d.tokens = argumentTokens args ++ last.tokens ∧
      d.toExpr = args.map toExpr ++ [last.toExpr] := by
  cases args with
  | nil => exact ⟨.arguments last .argumentsEnd, by simp [Derivation.tokens, argumentTokens], rfl⟩
  | cons first args =>
    obtain ⟨d, htokens, hexpr⟩ := exists_argumentsRest last args
    refine ⟨.arguments first d, ?_, congrArg (first.toExpr :: ·) hexpr⟩
    rw [Derivation.tokens, htokens]
    simp [argumentTokens]

/-! ### What has been taken -/

/-- The tokens of a piece that is not complete, by what has to come next. -/
inductive Begun : Next → List Token → Prop where
  | item : Begun .item []
  | column : Begun .column [colon]
  | divider (w : Word) (hw : (Literal.read? w.chars).isSome = true) :
      Begun (.divider w.text) [colon, w.token]
  | row (w : Word) (hw : (Literal.read? w.chars).isSome = true) :
      Begun (.row w.text) [colon, w.token, colon]
  | opening (w : Word) (hw : Literal.read? w.chars = none) : Begun (.opening w.text) [w.token]

/-- The tokens of the open regions, by the open brackets and the items of the innermost region. -/
inductive Opened : List Bracket → List Item → List Token → Prop where
  | outermost (ps : List Piece) : Opened [] (ps.map Piece.item).reverse (ps.flatMap Piece.tokens)
  | group {brackets outer ts} (h : Opened brackets outer ts) (ps : List Piece) :
      Opened (.group outer :: brackets) (ps.map Piece.item).reverse
        (ts ++ openParen :: ps.flatMap Piece.tokens)
  | call {brackets outer ts} (h : Opened brackets outer ts) (name : Word)
      (hname : Literal.read? name.chars = none) (args : List (Derivation .expr))
      (ps : List Piece) :
      Opened (.call name.text (args.map toExpr).reverse outer :: brackets)
        (ps.map Piece.item).reverse
        (ts ++ name.token :: openParen :: (argumentTokens args ++ ps.flatMap Piece.tokens))

/-- The reader knows what it does from having taken the tokens `ts`. -/
inductive HasRead : Reader → List Token → Prop where
  | intro {items brackets next before begun} (h : Opened brackets items before)
      (hnext : Begun next begun) : HasRead ⟨items, brackets, next⟩ (before ++ begun)

theorem hasRead_start : HasRead start [] :=
  .intro (.outermost []) .item

theorem Opened.hasRead {brackets items ts} (h : Opened brackets items ts) :
    HasRead ⟨items, brackets, .item⟩ ts :=
  (List.append_nil ts) ▸ .intro h .item

/-- A complete piece is an item more in the innermost region. -/
theorem Opened.push {brackets items ts} (h : Opened brackets items ts) (p : Piece) :
    Opened brackets (p.item :: items) (ts ++ p.tokens) := by
  cases h with
  | outermost ps => simpa using Opened.outermost (ps ++ [p])
  | group h ps => simpa using Opened.group h (ps ++ [p])
  | call h name hname args ps => simpa using Opened.call h name hname args (ps ++ [p])

/-- Where a region closes and its expression is used, that is the expression of a derivation of the
tokens of the region. -/
theorem exists_derivation_of_close_bind {α : Type} {ps : List Piece}
    {f : Expr → Except ParseError α} {a : α}
    (h : Region.close (ps.map Piece.item).reverse.reverse >>= f = .ok a) :
    ∃ d : Derivation .expr, d.tokens = ps.flatMap Piece.tokens ∧ f d.toExpr = .ok a := by
  obtain ⟨e, hclose, hf⟩ := exists_of_bind_eq_ok h
  rw [List.reverse_reverse] at hclose
  obtain ⟨d, htokens, rfl⟩ := exists_derivation_of_close hclose
  exact ⟨d, htokens, hf⟩

/-! ### One token more -/

section Step

variable {brackets : List Bracket} {items : List Item} {ts : List Token} {r : Reader}

/-- A word where an item may stand is a number, or it begins a call. -/
theorem Opened.step_word (h : Opened brackets items ts) (w : Word)
    (hr : step ⟨items, brackets, .item⟩ w.token = .ok r) : HasRead r (ts ++ [w.token]) := by
  cases hw : Literal.read? w.chars with
  | some x =>
    rw [step_number items brackets hw] at hr
    cases hr
    exact (h.push (.operand (.number w x hw))).hasRead
  | none =>
    rw [Word.token_of_eq_none hw] at hr
    cases hr
    exact .intro h (.opening w hw)

/-- A comma ends an argument of a call. -/
theorem Opened.step_comma (h : Opened brackets items ts)
    (hr : step ⟨items, brackets, .item⟩ Token.comma = .ok r) :
    HasRead r (ts ++ [Token.comma]) := by
  cases h with
  | outermost | group => cases hr
  | @call brackets outer ts h name hname args ps =>
    obtain ⟨d, htokens, hr⟩ := exists_derivation_of_close_bind hr
    cases hr
    have hcall := (h.call name hname (args ++ [d]) []).hasRead
    simpa [argumentTokens, htokens] using hcall

/-- A closing parenthesis ends a group or a call, which becomes an operand of the region around
it. -/
theorem Opened.step_closeParen (h : Opened brackets items ts)
    (hr : step ⟨items, brackets, .item⟩ closeParen = .ok r) : HasRead r (ts ++ [closeParen]) := by
  cases h with
  | outermost => cases hr
  | @group brackets outer ts h ps =>
    obtain ⟨d, htokens, hr⟩ := exists_derivation_of_close_bind hr
    cases hr
    have hgroup : HasRead ⟨.operand (d.toExpr).parenthesized :: outer, brackets, .item⟩ _ :=
      (h.push (.operand (.group d))).hasRead
    simpa [Piece.tokens, Derivation.tokens, htokens] using hgroup
  | @call brackets outer ts h name hname args ps =>
    change (if _ then _ else Region.close (ps.map Piece.item).reverse.reverse >>= _) = _ at hr
    split_ifs at hr with hempty
    · obtain ⟨rfl, rfl⟩ : ps = [] ∧ args = [] := by simpa using hempty
      cases hr
      have hcall : HasRead ⟨.operand (.ofCall name.text []) :: outer, brackets, .item⟩ _ :=
        (h.push (.operand (.call name hname .noArguments))).hasRead
      simpa [Piece.tokens, Derivation.tokens, argumentTokens] using hcall
    · obtain ⟨d, htokens, hr⟩ := exists_derivation_of_close_bind hr
      obtain ⟨a, hargs, hexprs⟩ := exists_arguments d args
      cases hr
      have hcall : HasRead ⟨.operand (.ofCall name.text a.toExpr) :: outer, brackets, .item⟩ _ :=
        (h.push (.operand (.call name hname a))).hasRead
      simpa [Piece.tokens, Derivation.tokens, hargs, hexprs, htokens] using hcall

/-- A token where an item may stand. -/
theorem Opened.step_item (h : Opened brackets items ts) {t : Token} (ht : IsLexeme t)
    (hr : step ⟨items, brackets, .item⟩ t = .ok r) : HasRead r (ts ++ [t]) := by
  cases ht with
  | word w => exact h.step_word w hr
  | comma => exact h.step_comma hr
  | colon =>
    cases hr
    exact .intro h .column
  | openParen =>
    cases hr
    exact (h.group []).hasRead
  | closeParen => exact h.step_closeParen hr
  | operator op =>
    rw [step_operator] at hr
    cases hr
    exact (h.push (.operator op)).hasRead

/-- One token more is accounted for. -/
theorem HasRead.step (h : HasRead r ts) {t : Token} (ht : IsLexeme t) {r' : Reader}
    (hr : r.step t = .ok r') : HasRead r' (ts ++ [t]) := by
  cases h with
  | @intro items brackets next before begun h hnext =>
    cases hnext with
    | item =>
      rw [List.append_nil]
      exact h.step_item ht hr
    | column =>
      simp only [Reader.step] at hr
      split_ifs at hr with hk
      · obtain ⟨w, hw, rfl⟩ := ht.exists_number hk
        cases hr
        rw [List.append_assoc]
        exact .intro h (.divider w hw)
      · cases hr
    | divider w hw =>
      simp only [Reader.step] at hr
      split_ifs at hr with hk
      · obtain rfl := ht.eq_colon hk
        cases hr
        rw [List.append_assoc]
        exact .intro h (.row w hw)
      · cases hr
    | row w hw =>
      simp only [Reader.step] at hr
      split_ifs at hr with hk
      · obtain ⟨v, hv, rfl⟩ := ht.exists_number hk
        obtain ⟨i, hi, hr⟩ := exists_of_bind_eq_ok hr
        obtain ⟨j, hj, hr⟩ := exists_of_bind_eq_ok hr
        obtain ⟨col, rfl, rfl⟩ := (coordinate_text_eq_ok_iff _ _).1 hi
        obtain ⟨row, rfl, rfl⟩ := (coordinate_text_eq_ok_iff _ _).1 hj
        cases hr
        rw [List.append_assoc]
        exact (h.push (.operand (.reference col row))).hasRead
      · cases hr
    | opening w hw =>
      simp only [Reader.step] at hr
      split_ifs at hr with hk
      · obtain rfl := ht.eq_openParen hk
        cases hr
        have hcall := (h.call w hw [] []).hasRead
        simpa [argumentTokens] using hcall
      · cases hr

/-- All tokens are accounted for. -/
theorem HasRead.steps (h : HasRead r ts) {us : List Token} (hus : ∀ t ∈ us, IsLexeme t)
    {r' : Reader} (hr : r.steps us = .ok r') : HasRead r' (ts ++ us) := by
  induction us generalizing r ts with
  | nil =>
    cases hr
    rwa [List.append_nil]
  | cons t us ih =>
    rw [steps_cons] at hr
    obtain ⟨r₁, hstep, hr⟩ := exists_of_bind_eq_ok hr
    have hrest := ih (h.step (hus t (by simp)) hstep) (fun u hu => hus u (by simp [hu])) hr
    simpa using hrest

end Step

/-- What is read is derivable, and the expression is that of its derivation. -/
theorem exists_derivation_of_ofTokens {ts : List Token} (hts : ∀ t ∈ ts, IsLexeme t) {e : Expr}
    (h : Expr.ofTokens ts = .ok e) : ∃ d : Derivation .expr, d.tokens = ts ∧ d.toExpr = e := by
  rw [ofTokens_eq] at h
  obtain ⟨r, hsteps, hfinish⟩ := exists_of_bind_eq_ok h
  have hread := hasRead_start.steps hts hsteps
  rw [List.nil_append] at hread
  cases hread with
  | intro hopened hnext =>
    cases hnext with
    | item =>
      cases hopened with
      | outermost ps =>
        obtain ⟨d, htokens, hfinish⟩ := exists_derivation_of_close_bind hfinish
        cases hfinish
        exact ⟨d, by rw [htokens, List.append_nil], rfl⟩
      | group | call =>
        obtain ⟨e', -, hfinish⟩ := exists_of_bind_eq_ok hfinish
        cases hfinish
    | column | divider | row | opening => cases hfinish

end FormulaSheet.Grammar
