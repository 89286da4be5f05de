import FormulaSheet.Proofs.Grammar.Soundness
import FormulaSheet.Proofs.Grammar.Stopping

/-!
# Faults that do not occur

A list of tokens fails with the fault that the reader has at the place to which it has come. When it
does not fail in its outermost region no token is left, and a dangling operator is none of the
faults of a reader. The tokens of a text are lexemes, so a number at which the reader fails would be
a literal, and an operator one of the four.

## Main results

* `Reader.exists_fault`: the faults that reading can end with.
* `Grammar.unreachable_faults`: faults that are told apart but do not occur.
-/

namespace FormulaSheet

/-! ### Faults of a reader -/

namespace Reader

open Token

variable {r : Reader} {t : Token} {e : ParseError}

/-- Reading fails with a fault of the reader at the place that it has come to. -/
theorem exists_fault {ends : List TokenKind} {ts : List Token}
    (h : (read ends r ts).1 = .error e) :
    ∃ us r', us ⊆ ts ∧ r.steps us = .ok r' ∧
      ∃ t : Option Token, (∀ u ∈ t, u ∈ ts) ∧ Fault r' t e := by
  have hout := outcome_read ends r ts
  generalize read ends r ts = out at h hout
  cases hout with
  | @ended us r' hpass rest hrest =>
    exact ⟨us, r', List.subset_append_left us rest, hpass.steps_eq, none, nofun, fault_of_finish h⟩
  | @failed us r' t e' hpass hend hstep rest =>
    cases h
    exact ⟨us, r', List.subset_append_left us _, hpass.steps_eq, some t, by simp,
      fault_of_step hstep⟩

end Reader

namespace Grammar

open Reader Token

/-- The answer for a list of tokens is the one for its outermost region. -/
theorem fst_read_eq_ofTokens (ts : List Token) :
    (Reader.read [] Reader.start ts).1 = Expr.ofTokens ts := by
  obtain ⟨rest, hread, -⟩ := read_eq start ts
  rw [hread, ofTokens_eq]

section Lexemes

variable {us : List Token} {r : Reader} {t : Option Token}

/-- Among lexemes, what is taken for a number is one. -/
theorem not_fault_notANumber (hr : start.steps us = .ok r) (hus : ∀ u ∈ us, IsLexeme u)
    (ht : ∀ u ∈ t, IsLexeme u) (text : String) : ¬Fault r t (.notANumber text) := by
  intro h
  cases h with
  | region _ h => cases h
  | @notANumber t hk hnone =>
    obtain ⟨w, hw, rfl⟩ := (ht t rfl).exists_number hk
    rw [Word.text_token, Word.toList_text] at hnone
    simp [hnone] at hw
  | column hnext hnone t =>
    cases hasRead_start.steps hus hr with
    | intro _ hbegun =>
      obtain rfl := hnext
      cases hbegun with
      | row w hw =>
        rw [Word.toList_text] at hnone
        simp [hnone] at hw

/-- Among lexemes, what is taken for an operator is one. -/
theorem not_fault_unknownOperator (ht : ∀ u ∈ t, IsLexeme u) (text : String) :
    ¬Fault r t (.unknownOperator text) := by
  intro h
  cases h with
  | region _ h => cases h
  | @unknownOperator t hk hnone =>
    obtain ⟨op, rfl⟩ := (ht t rfl).exists_operator hk
    simp [ofOperator] at hnone

end Lexemes

/-- **Some faults do not occur.** When the outermost region of a list of tokens is an expression no
token is left. The two passes over a region leave no operator, so none is dangling wherever reading
begins. In a text all that is taken for a number is one, and so is all that is taken for an
operator. -/
theorem unreachable_faults :
    (∀ ts e rest, Reader.read [] Reader.start ts = (.ok e, rest) → rest = []) ∧
      (∀ items first second, foldOperators Operator.isMultiplicative [] items = .ok first →
        foldOperators Operator.isAdditive [] first = .ok second → ∀ op, .operator op ∉ second) ∧
      (∀ ends r ts op, (Reader.read ends r ts).1 ≠ .error (.danglingOperator op)) ∧
      ∀ s text, Expr.parse s ≠ .error (.notANumber text) ∧
        Expr.parse s ≠ .error (.unknownOperator text) := by
  refine ⟨?_, ?_, ?_, ?_⟩
  · intro ts e rest h
    obtain ⟨rest', hread, hrest⟩ := read_eq start ts
    obtain ⟨hfinish, rfl⟩ := Prod.mk.inj (hread.symm.trans h)
    exact hrest e hfinish
  · exact fun _ _ _ hfirst hsecond => operator_notMem_of_foldOperators hfirst hsecond
  · intro ends r ts op h
    obtain ⟨_, _, _, _, _, _, hfault⟩ := exists_fault h
    cases hfault with
    | region _ hregion => cases hregion
  · intro s text
    have hlexeme : ∀ t ∈ ofText s, IsLexeme t := fun _ => isLexeme_of_mem_ofText
    constructor
    all_goals
      intro h
      rw [Expr.parse, ← fst_read_eq_ofTokens] at h
      obtain ⟨us, r, hus, hsteps, t, ht, hfault⟩ := exists_fault h
    · exact not_fault_notANumber hsteps (fun u hu => hlexeme u (hus hu))
        (fun u hu => hlexeme u (ht u hu)) text hfault
    · exact not_fault_unknownOperator (fun u hu => hlexeme u (ht u hu)) text hfault

/-- A formula that is an expression, and a region whose operators both passes share out. -/
theorem unreachable_faults_sum :
    (∃ e rest, Reader.read [] Reader.start (ofText "f()+g()") = (.ok e, rest) ∧ rest = []) ∧
      ∃ first second,
        foldOperators Operator.isMultiplicative [] [.operand (.ofCall "f" []), .operator .add,
          .operand (.ofCall "g" []), .operator .mul, .operand (.ofCall "h" [])] = .ok first ∧
        foldOperators Operator.isAdditive [] first = .ok second ∧ ∀ op, .operator op ∉ second := by
  refine ⟨⟨_, _, rfl, unreachable_faults.1 (ofText "f()+g()") _ _ rfl⟩, _, _, rfl, rfl, ?_⟩
  exact unreachable_faults.2.1 [.operand (.ofCall "f" []), .operator .add,
    .operand (.ofCall "g" []), .operator .mul, .operand (.ofCall "h" [])] _ _ rfl rfl

end Grammar

end FormulaSheet
