import FormulaSheet.Proofs.Grammar.Soundness
import FormulaSheet.Proofs.Grammar.Unambiguity

/-!
# The formulas are those of the grammar

Reading a formula succeeds exactly when its tokens are derivable, and the expression read is that of
the one derivation there is. So the reader, which never looks at the grammar, decides it, and the
precedence and the associativity of its two passes are those of the grammar.

## Main results

* `Grammar.parse_eq_ok_iff`: what is read is what is derived.
* `Grammar.parse_recognizes`: formulas are read exactly when they are derivable, as the tree of
  their only derivation. -/

namespace FormulaSheet.Grammar

open Grammar.Derivation

/-- A formula is read as an expression when its tokens have a derivation of that expression. -/
theorem parse_eq_ok_iff (s : String) (e : Expr) :
    Expr.parse s = .ok e ↔
      ∃ d : Derivation .expr, d.tokens = Token.ofText s ∧ d.toExpr = e := by
  constructor
  · intro h
    exact exists_derivation_of_ofTokens (fun _ => Token.isLexeme_of_mem_ofText) h
  · rintro ⟨d, htokens, rfl⟩
    rw [Expr.parse, ← htokens, ofTokens_tokens]

/-- **Formulas are recognized.** A formula is read exactly when the grammar derives its tokens. Then
it has one derivation only, and the expression read has the tree of that derivation. -/
theorem parse_recognizes (s : String) :
    ((∃ e, Expr.parse s = .ok e) ↔ ∃ d : Derivation .expr, d.tokens = Token.ofText s) ∧
      ∀ e, Expr.parse s = .ok e → ∃ d : Derivation .expr, d.tokens = Token.ofText s ∧
        (∀ d' : Derivation .expr, d'.tokens = Token.ofText s → d' = d) ∧ e.tree = d.toTree := by
  refine ⟨⟨?_, ?_⟩, ?_⟩
  · rintro ⟨e, h⟩
    obtain ⟨d, htokens, -⟩ := (parse_eq_ok_iff s e).1 h
    exact ⟨d, htokens⟩
  · rintro ⟨d, htokens⟩
    exact ⟨d.toExpr, (parse_eq_ok_iff s _).2 ⟨d, htokens, rfl⟩⟩
  · intro e h
    obtain ⟨d, htokens, rfl⟩ := (parse_eq_ok_iff s e).1 h
    exact ⟨d, htokens, fun d' htokens' => eq_of_tokens_eq (htokens'.trans htokens.symm),
      sameTree d⟩

end FormulaSheet.Grammar
