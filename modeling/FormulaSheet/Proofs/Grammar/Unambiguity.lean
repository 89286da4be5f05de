import FormulaSheet.Proofs.Grammar.Derivation

/-!
# The grammar is unambiguous

A list of tokens has at most one derivation. What a symbol derives from the front of a list is
determined as soon as the rest of the list cannot continue it: an expression is not followed by an
operator, a term not by a multiplicative one, and arguments are followed by the closing parenthesis.

## Main definitions

* `Grammar.CanFollow`: the tokens that can stand after what a symbol derives.

## Main results

* `Grammar.eq_of_tokens_append_eq`: two derivations in front of such tokens are the same.
* `Grammar.eq_of_tokens_eq`: a list of tokens has at most one derivation.
-/

namespace FormulaSheet.Grammar

open Token Grammar.Derivation

/-! ### Tokens tell what they are made from -/

theorem Word.token_injective {w v : Word} (h : w.token = v.token) : w = v :=
  Word.eq_of_text_eq (congrArg Token.text h)

theorem ofOperator_injective {op op' : Operator} (h : ofOperator op = ofOperator op') :
    op = op' := by
  have hsymbol : op.symbol = op'.symbol := congrArg Token.text h
  rw [← Option.some.injEq, ← Operator.ofSymbol?_symbol, hsymbol, Operator.ofSymbol?_symbol]

/-- A coordinate is determined by its word. -/
theorem Coordinate.eq_of_word_eq {c d : Coordinate} (h : c.word = d.word) : c = d := by
  rcases c with ⟨w, x, m, hx, hm, _⟩
  rcases d with ⟨v, y, n, hy, hn, _⟩
  obtain rfl : w = v := h
  obtain rfl : x = y := Option.some.inj (hx.symm.trans hy)
  obtain rfl : m = n := Nat.cast_injective (Option.some.inj (hm.symm.trans hn))
  rfl

/-! ### First tokens -/

/-- The kind of the first token of a factor, which tells the production. -/
def Derivation.firstKind : Derivation .factor → TokenKind
  | number .. => .number
  | reference .. => .colon
  | call .. => .identifier
  | group .. => .openParen

theorem head?_tokens_factor (d : Derivation .factor) (r : List Token) :
    (d.tokens ++ r).head?.map Token.kind = some d.firstKind := by
  cases d with
  | number word value hword =>
    rw [Derivation.tokens, Word.token_of_isSome (by simp [hword])]
    rfl
  | reference col row => rfl
  | call name hname args =>
    rw [Derivation.tokens, Word.token_of_eq_none hname]
    rfl
  | group inner => rfl

theorem firstKind_eq {d d' : Derivation .factor} {r r' : List Token}
    (h : d.tokens ++ r = d'.tokens ++ r') : d.firstKind = d'.firstKind := by
  rw [← Option.some.injEq, ← head?_tokens_factor d r, h, head?_tokens_factor]

/-- No expression begins with a closing parenthesis. -/
theorem head?_tokens_expr_ne (d : Derivation .expr) (r : List Token) :
    (d.tokens ++ r).head? ≠ some closeParen := by
  cases d with
  | expr first rest =>
    cases first with
    | term f more =>
      intro h
      have hkind := head?_tokens_factor f (more.tokens ++ (rest.tokens ++ r))
      rw [Derivation.tokens, Derivation.tokens, List.append_assoc, List.append_assoc] at h
      rw [h] at hkind
      cases f <;> cases hkind

/-! ### What can follow -/

/-- The tokens that can stand after what a symbol derives. -/
def CanFollow (r : List Token) : Symbol → Prop
  | .expr | .exprRest => ∀ op, r.head? ≠ some (ofOperator op)
  | .term | .termRest => ∀ op, op.isMultiplicative = true → r.head? ≠ some (ofOperator op)
  | .factor => True
  | .arguments | .argumentsRest => r.head? = some closeParen

theorem canFollow_term (d : Derivation .exprRest) {r : List Token} (h : CanFollow r .expr) :
    CanFollow (d.tokens ++ r) .term := by
  cases d with
  | exprEnd => exact fun op _ => h op
  | exprNext op hop next rest =>
    intro op' hop' heq
    obtain rfl := ofOperator_injective (Option.some.inj heq)
    simp [Operator.isAdditive, hop'] at hop

theorem canFollow_argument (d : Derivation .argumentsRest) {r : List Token}
    (h : CanFollow r .arguments) : CanFollow (d.tokens ++ r) .expr := by
  intro op heq
  cases d with
  | argumentsEnd => cases h.symm.trans heq
  | argumentsNext => cases heq

theorem canFollow_expr_closeParen (r : List Token) : CanFollow (closeParen :: r) .expr := by
  intro op heq
  cases heq

theorem canFollow_arguments_closeParen (r : List Token) :
    CanFollow (closeParen :: r) .arguments :=
  rfl

/-! ### Unambiguity -/

/-- Two derivations from the same symbol, in front of tokens that can follow, are the same. -/
theorem eq_of_tokens_append_eq {σ : Symbol} (d d' : Derivation σ) {r r' : List Token}
    (hr : CanFollow r σ) (hr' : CanFollow r' σ) (h : d.tokens ++ r = d'.tokens ++ r') :
    d = d' ∧ r = r' := by
  induction d generalizing r r' with
  | expr first rest hfirst hrest =>
    cases d' with
    | expr first' rest' =>
      simp only [Derivation.tokens, List.append_assoc] at h
      obtain ⟨rfl, hmore⟩ := hfirst _ (canFollow_term rest hr) (canFollow_term rest' hr') h
      obtain ⟨rfl, hend⟩ := hrest rest' hr hr' hmore
      exact ⟨rfl, hend⟩
  | exprEnd =>
    cases d' with
    | exprEnd => exact ⟨rfl, h⟩
    | exprNext op => exact absurd (congrArg List.head? h) (hr op)
  | exprNext op hop next rest hnext hrest =>
    cases d' with
    | exprEnd => exact absurd (congrArg List.head? h.symm) (hr' op)
    | exprNext op' hop' next' rest' =>
      simp only [Derivation.tokens, List.cons_append, List.append_assoc, List.cons.injEq] at h
      obtain rfl := ofOperator_injective h.1
      obtain ⟨rfl, hmore⟩ := hnext _ (canFollow_term rest hr) (canFollow_term rest' hr') h.2
      obtain ⟨rfl, hend⟩ := hrest rest' hr hr' hmore
      exact ⟨rfl, hend⟩
  | term first rest hfirst hrest =>
    cases d' with
    | term first' rest' =>
      simp only [Derivation.tokens, List.append_assoc] at h
      obtain ⟨rfl, hmore⟩ := hfirst _ trivial trivial h
      obtain ⟨rfl, hend⟩ := hrest rest' hr hr' hmore
      exact ⟨rfl, hend⟩
  | termEnd =>
    cases d' with
    | termEnd => exact ⟨rfl, h⟩
    | termNext op hop => exact absurd (congrArg List.head? h) (hr op hop)
  | termNext op hop next rest hnext hrest =>
    cases d' with
    | termEnd => exact absurd (congrArg List.head? h.symm) (hr' op hop)
    | termNext op' hop' next' rest' =>
      simp only [Derivation.tokens, List.cons_append, List.append_assoc, List.cons.injEq] at h
      obtain rfl := ofOperator_injective h.1
      obtain ⟨rfl, hmore⟩ := hnext _ trivial trivial h.2
      obtain ⟨rfl, hend⟩ := hrest rest' hr hr' hmore
      exact ⟨rfl, hend⟩
  | number word value hword =>
    have hkind := firstKind_eq h
    cases d' with
    | number word' value' hword' =>
      simp only [Derivation.tokens, List.cons_append, List.nil_append, List.cons.injEq] at h
      obtain rfl := Word.token_injective h.1
      obtain rfl : value = value' := Option.some.inj (hword.symm.trans hword')
      exact ⟨rfl, h.2⟩
    | _ => cases hkind
  | reference col row =>
    have hkind := firstKind_eq h
    cases d' with
    | reference col' row' =>
      simp only [Derivation.tokens, List.cons_append, List.nil_append, List.cons.injEq,
        true_and] at h
      obtain rfl := Coordinate.eq_of_word_eq (Word.token_injective h.1)
      obtain rfl := Coordinate.eq_of_word_eq (Word.token_injective h.2.1)
      exact ⟨rfl, h.2.2⟩
    | _ => cases hkind
  | call name hname args hargs =>
    have hkind := firstKind_eq h
    cases d' with
    | call name' hname' args' =>
      simp only [Derivation.tokens, List.cons_append, List.append_assoc, List.nil_append,
        List.cons.injEq, true_and] at h
      obtain rfl := Word.token_injective h.1
      obtain ⟨rfl, hend⟩ := hargs args' (canFollow_arguments_closeParen r)
        (canFollow_arguments_closeParen r') h.2
      exact ⟨rfl, (List.cons.inj hend).2⟩
    | _ => cases hkind
  | group inner hinner =>
    have hkind := firstKind_eq h
    cases d' with
    | group inner' =>
      simp only [Derivation.tokens, List.cons_append, List.append_assoc, List.nil_append,
        List.cons.injEq, true_and] at h
      obtain ⟨rfl, hend⟩ := hinner inner' (canFollow_expr_closeParen r)
        (canFollow_expr_closeParen r') h
      exact ⟨rfl, (List.cons.inj hend).2⟩
    | _ => cases hkind
  | noArguments =>
    cases d' with
    | noArguments => exact ⟨rfl, h⟩
    | arguments first rest =>
      simp only [Derivation.tokens, List.append_assoc, List.nil_append] at h
      exact absurd (h ▸ hr) (head?_tokens_expr_ne first _)
  | arguments first rest hfirst hrest =>
    cases d' with
    | noArguments =>
      simp only [Derivation.tokens, List.append_assoc, List.nil_append] at h
      exact absurd (h ▸ hr') (head?_tokens_expr_ne first _)
    | arguments first' rest' =>
      simp only [Derivation.tokens, List.append_assoc] at h
      obtain ⟨rfl, hmore⟩ := hfirst _ (canFollow_argument rest hr) (canFollow_argument rest' hr') h
      obtain ⟨rfl, hend⟩ := hrest rest' hr hr' hmore
      exact ⟨rfl, hend⟩
  | argumentsEnd =>
    cases d' with
    | argumentsEnd => exact ⟨rfl, h⟩
    | argumentsNext => cases hr.symm.trans (congrArg List.head? h)
  | argumentsNext next rest hnext hrest =>
    cases d' with
    | argumentsEnd => cases hr'.symm.trans (congrArg List.head? h.symm)
    | argumentsNext next' rest' =>
      simp only [Derivation.tokens, List.cons_append, List.append_assoc, List.cons.injEq,
        true_and] at h
      obtain ⟨rfl, hmore⟩ := hnext _ (canFollow_argument rest hr) (canFollow_argument rest' hr') h
      obtain ⟨rfl, hend⟩ := hrest rest' hr hr' hmore
      exact ⟨rfl, hend⟩

/-- A list of tokens has at most one derivation. -/
theorem eq_of_tokens_eq {d d' : Derivation .expr} (h : d.tokens = d'.tokens) : d = d' := by
  have hend : CanFollow [] .expr := by
    intro op heq
    cases heq
  exact (eq_of_tokens_append_eq d d' hend hend (congrArg (· ++ []) h)).1

end FormulaSheet.Grammar
