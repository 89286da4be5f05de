import FormulaSheet.Proofs.Document.Operation

/-!
# Refused operations

Storing an input, undoing, redoing and evaluating a formula can be refused. Whether and why is told
by the document and the operation: the cell lies outside the sheet, the text is no formula, or that
side of the history is empty. A refused operation leaves the document as it was, with all that is
remembered and with both sides of its history, so a run can do without it.

## Main definitions

* `Document.Operation.error?`: the error that an operation ends with.
* `Document.Refused`: the reasons for which operations are refused.
* `Document.accepted`: the operations of a run that are not refused.

## Main results

* `Document.refused_operations`: operations fail for these reasons only, and then change nothing.
* `Document.afterOperations_accepted`: a run is the run of its accepted operations.
-/

namespace FormulaSheet

/-! ### Texts that are no formulas -/

/-- An input makes no cell exactly when an equals sign introduces a text that is no formula. -/
theorem Cell.ofInput_eq_error_iff {s : String} {e : ParseError} :
    ofInput s = .error e ↔
      ∃ t, Text.trimChars s.toList = '=' :: t ∧ Expr.parse (String.ofList t) = .error e := by
  have hformula (t : List Char) :
      ofFormula (String.ofList t) = .error e ↔ Expr.parse (String.ofList t) = .error e := by
    rw [ofFormula]
    cases Expr.parse (String.ofList t) <;> simp [Except.map]
  rw [ofInput]
  split
  · next htrim => simp [htrim]
  · next t htrim => simp [htrim, hformula]
  · next hequals =>
    refine iff_of_false nofun ?_
    rintro ⟨t, htrim, -⟩
    exact hequals t htrim

namespace Document

/-! ### Errors and their reasons -/

/-- The error of a result, if it is one. -/
def errorOf {α : Type} : Except EditError α → Option EditError
  | .error e => some e
  | .ok _ => none

/-- The error that an operation on a document ends with, unless it succeeds. Clearing a cell, a new
version and reading a cell always succeed. -/
def Operation.error? (d : Document) : Operation → Option EditError
  | setInput c input => errorOf ((Document.setInput c input).run.run d).1
  | undo => errorOf (Document.undo.run.run d).1
  | redo => errorOf (Document.redo.run.run d).1
  | read (.evaluate s) => errorOf ((Document.evaluate s).run.run d).1
  | clear _ | endCycle | read (.value _) | read (.display _) => none

/-- `Refused d op e` says that the operation `op` on the document `d` is refused because of `e`. -/
inductive Refused (d : Document) : Operation → EditError → Prop where
  /-- The cell lies outside the sheet, whatever the input is. -/
  | outside {c input} (hc : d.sheet.size.cols ≤ c.col ∨ d.sheet.size.rows ≤ c.row) :
      Refused d (.setInput c input) (.outOfBounds c d.sheet.size)
  /-- What follows the equals sign of the input is no formula. -/
  | input {c input t e} (hc : c.col < d.sheet.size.cols ∧ c.row < d.sheet.size.rows)
      (htrim : Text.trimChars input.toList = '=' :: t)
      (hparse : Expr.parse (String.ofList t) = .error e) :
      Refused d (.setInput c input) (.invalidFormula e)
  | undo (h : d.past = []) : Refused d .undo .nothingToUndo
  | redo (h : d.future = []) : Refused d .redo .nothingToRedo
  /-- The text has no equals sign in front and is no formula. -/
  | formula {s e} (hequals : (Text.trimChars s.toList).head? ≠ some '=')
      (hparse : Expr.parse (String.ofList (Text.trimChars s.toList)) = .error e) :
      Refused d (.read (.evaluate s)) (.invalidFormula e)
  /-- What follows the equals sign of the text is no formula. A second equals sign is part of it. -/
  | equalsFormula {s t e} (htrim : Text.trimChars s.toList = '=' :: t)
      (hparse : Expr.parse (String.ofList t) = .error e) :
      Refused d (.read (.evaluate s)) (.invalidFormula e)

variable {d : Document} {e : EditError}

theorem contains_eq_false_iff {size : Size} {c : CellRef} :
    size.contains c = false ↔ size.cols ≤ c.col ∨ size.rows ≤ c.row := by
  rw [Size.contains, Bool.and_eq_false_iff, decide_eq_false_iff_not, decide_eq_false_iff_not,
    UInt64.not_lt, UInt64.not_lt]

theorem contains_eq_true_iff {size : Size} {c : CellRef} :
    size.contains c = true ↔ c.col < size.cols ∧ c.row < size.rows := by
  rw [Size.contains, Bool.and_eq_true, decide_eq_true_iff, decide_eq_true_iff]

/-! ### What refused operations do -/

namespace Refused

theorem run_setInput {c : CellRef} {input : String} (h : Refused d (.setInput c input) e) :
    (setInput c input).run.run d = (.error e, d) := by
  cases h with
  | outside hc => rw [Document.run_setInput, if_neg (by simp [contains_eq_false_iff.2 hc])]
  | input hc htrim hparse =>
    rw [Document.run_setInput, if_pos (contains_eq_true_iff.2 hc),
      Cell.ofInput_eq_error_iff.2 ⟨_, htrim, hparse⟩]

theorem run_undo (h : Refused d .undo e) : Document.undo.run.run d = (.error e, d) := by
  cases h with
  | undo hpast => rw [Document.run_undo, hpast]

theorem run_redo (h : Refused d .redo e) : Document.redo.run.run d = (.error e, d) := by
  cases h with
  | redo hfuture => rw [Document.run_redo, hfuture]

theorem run_evaluate {s : String} (h : Refused d (.read (.evaluate s)) e) :
    (evaluate s).run.run d = (.error e, d) := by
  cases h with
  | formula hequals hparse =>
    rw [Document.run_evaluate, formulaText_of_head?_ne hequals, hparse]
  | equalsFormula htrim hparse =>
    rw [Document.run_evaluate, formulaText_of_equals htrim, hparse]

/-- A refused operation leaves the document as it was. -/
theorem after_eq {op : Operation} (h : Refused d op e) : op.after d = d := by
  cases op with
  | setInput => rw [Operation.after, h.run_setInput]
  | undo => rw [Operation.after, h.run_undo]
  | redo => rw [Operation.after, h.run_redo]
  | clear | endCycle => cases h
  | read r =>
    cases r with
    | evaluate => rw [Operation.after, Read.after, h.run_evaluate]
    | value | display => cases h

end Refused

/-! ### When operations are refused -/

theorem errorOf_eq_some_iff {α : Type} {r : Except EditError α} :
    errorOf r = some e ↔ r = .error e := by
  cases r <;> simp [errorOf]

theorem error?_setInput_iff {c : CellRef} {input : String} :
    (Operation.setInput c input).error? d = some e ↔ Refused d (.setInput c input) e := by
  rw [Operation.error?, errorOf_eq_some_iff]
  constructor
  · intro h
    rw [run_setInput] at h
    split at h
    · next hc =>
      split at h
      · next hk =>
        obtain ⟨t, htrim, hparse⟩ := Cell.ofInput_eq_error_iff.1 hk
        cases h
        exact .input (contains_eq_true_iff.1 hc) htrim hparse
      · cases h
    · next hc =>
      cases h
      exact .outside (contains_eq_false_iff.1 (by simpa using hc))
  · intro h
    rw [h.run_setInput]

theorem error?_undo_iff : Operation.undo.error? d = some e ↔ Refused d .undo e := by
  rw [Operation.error?, errorOf_eq_some_iff]
  constructor
  · intro h
    rw [run_undo] at h
    split at h
    · next hpast =>
      cases h
      exact .undo hpast
    · cases h
  · intro h
    rw [h.run_undo]

theorem error?_redo_iff : Operation.redo.error? d = some e ↔ Refused d .redo e := by
  rw [Operation.error?, errorOf_eq_some_iff]
  constructor
  · intro h
    rw [run_redo] at h
    split at h
    · next hfuture =>
      cases h
      exact .redo hfuture
    · cases h
  · intro h
    rw [h.run_redo]

theorem error?_evaluate_iff {s : String} :
    (Operation.read (.evaluate s)).error? d = some e ↔ Refused d (.read (.evaluate s)) e := by
  rw [Operation.error?, errorOf_eq_some_iff]
  constructor
  · intro h
    rw [run_evaluate] at h
    split at h
    · next hparse =>
      cases h
      by_cases hequals : (Text.trimChars s.toList).head? = some '='
      · obtain ⟨t, htrim⟩ := List.head?_eq_some_iff.1 hequals
        exact .equalsFormula htrim (formulaText_of_equals htrim ▸ hparse)
      · exact .formula hequals (formulaText_of_head?_ne hequals ▸ hparse)
    · cases h
  · intro h
    rw [h.run_evaluate]

/-- An operation ends with an error exactly when it is refused because of that error. -/
theorem error?_eq_some_iff {op : Operation} : op.error? d = some e ↔ Refused d op e := by
  cases op with
  | setInput => exact error?_setInput_iff
  | undo => exact error?_undo_iff
  | redo => exact error?_redo_iff
  | clear | endCycle => exact iff_of_false nofun nofun
  | read r =>
    cases r with
    | evaluate => exact error?_evaluate_iff
    | value | display => exact iff_of_false nofun nofun

/-! ### Runs without what is refused -/

/-- The operations that are not refused when all are tried one after the other. -/
def accepted (d : Document) : List Operation → List Operation
  | [] => []
  | op :: ops =>
    match op.error? d with
    | none => op :: accepted (op.after d) ops
    | some _ => accepted d ops

/-- A run is the run of its accepted operations. -/
theorem afterOperations_accepted (d : Document) (ops : List Operation) :
    d.afterOperations (d.accepted ops) = d.afterOperations ops := by
  induction ops generalizing d with
  | nil => rfl
  | cons op ops ih =>
    rw [accepted]
    split
    · exact ih (op.after d)
    · next herror =>
      have hafter : op.after d = d := (error?_eq_some_iff.1 herror).after_eq
      rw [ih, afterOperations, afterOperations, List.foldl_cons, hafter]

/-- **Refused operations.** An operation on a document fails with an error exactly when there is
that reason to refuse it, and succeeds when there is none. When it fails, the document stays as it
was: its cells with all that is remembered, both sides of its history, its version and its size. -/
theorem refused_operations (d : Document) (op : Operation) :
    (∀ e, op.error? d = some e ↔ Refused d op e) ∧
      (op.error? d = none ↔ ∀ e, ¬ Refused d op e) ∧
      (∀ e, op.error? d = some e → op.after d = d) := by
  refine ⟨fun e => error?_eq_some_iff, ?_, fun e he => (error?_eq_some_iff.1 he).after_eq⟩
  simp only [Option.eq_none_iff_forall_ne_some, ne_eq, error?_eq_some_iff]

/-- A formula with its value remembered, and an edit that has been undone. -/
private def withUndone : Document :=
  run ⟨2, 2⟩ [.setInput ⟨0, 0⟩ "=1+2", .read (.value ⟨0, 0⟩), .setInput ⟨1, 0⟩ "7", .undo]

/-- An input that is refused forgets neither the value nor the edit to redo. -/
theorem refused_operations_withUndone :
    withUndone.future.length = 1 ∧
      (Operation.setInput ⟨0, 0⟩ " =1+").error? withUndone =
        some (.invalidFormula (.missingRight .add)) ∧
      Refused withUndone (.setInput ⟨0, 0⟩ " =1+") (.invalidFormula (.missingRight .add)) ∧
      (Operation.setInput ⟨0, 0⟩ " =1+").after withUndone = withUndone := by
  have herror : (Operation.setInput ⟨0, 0⟩ " =1+").error? withUndone =
      some (.invalidFormula (.missingRight .add)) := by
    decide +kernel
  obtain ⟨hreason, -, hunchanged⟩ := refused_operations withUndone (.setInput ⟨0, 0⟩ " =1+")
  exact ⟨by decide +kernel, herror, (hreason _).1 herror, hunchanged _ herror⟩

end Document

end FormulaSheet
