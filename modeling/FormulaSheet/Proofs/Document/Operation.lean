import FormulaSheet.Document
import FormulaSheet.Proofs.Grid.Contents

/-!
# Runs of a document

A document is used by edits, steps through its history, new versions and reads, in any order. Each
of these is an operation here, so a run is a list of operations applied to a blank document. For
every operation the document that it leaves behind is computed once, and later arguments start from
there.

## Main definitions

* `Document.Read`, `Document.Operation`: what can be done to a document.
* `Document.Operation.after`: the document after an operation, successful or not.
* `Document.run`: the document after a list of operations on a blank one.
-/

namespace FormulaSheet.Document

/-- A read: it gives a value or a text and keeps what is remembered on the way. -/
inductive Read where
  | value (c : CellRef)
  | display (c : CellRef)
  | evaluate (formula : String)

/-- What can be done to a document. -/
inductive Operation where
  | setInput (c : CellRef) (input : String)
  | clear (c : CellRef)
  | undo
  | redo
  | endCycle
  | read (r : Read)

/-- The document after a read. -/
def Read.after (d : Document) : Read → Document
  | value c => ((Document.value c).run d).2
  | display c => ((Document.display c).run d).2
  | evaluate s => ((Document.evaluate s).run.run d).2

/-- The document after an operation, whether it succeeds or fails. -/
def Operation.after (d : Document) : Operation → Document
  | setInput c input => ((Document.setInput c input).run.run d).2
  | clear c => ((Document.clear c).run d).2
  | undo => (Document.undo.run.run d).2
  | redo => (Document.redo.run.run d).2
  | endCycle => (Document.endCycle.run d).2
  | read r => r.after d

/-- The document after some reads. -/
def afterReads (d : Document) (rs : List Read) : Document :=
  rs.foldl Read.after d

/-- The document after some operations. -/
def afterOperations (d : Document) (ops : List Operation) : Document :=
  ops.foldl Operation.after d

/-- The document that a list of operations makes of a blank one. -/
def run (size : Size) (ops : List Operation) : Document :=
  (blank size).afterOperations ops

theorem afterReads_append_singleton (d : Document) (rs : List Read) (r : Read) :
    d.afterReads (rs ++ [r]) = r.after (d.afterReads rs) := by
  simp [afterReads]

theorem run_append_singleton (size : Size) (ops : List Operation) (op : Operation) :
    run size (ops ++ [op]) = op.after (run size ops) := by
  simp [run, afterOperations]

/-! ### Edits -/

/-- Reading the document first hands it to the rest of an edit. -/
private theorem run_get_bind (d : Document) (x : Document → Edit α) :
    ((get : Edit Document) >>= x).run.run d = (x d).run.run d :=
  rfl

/-- An input is stored when the cell lies in the sheet and the input makes a cell; otherwise nothing
changes. -/
theorem run_setInput (d : Document) (c : CellRef) (input : String) :
    (setInput c input).run.run d =
      if d.sheet.size.contains c then
        match Cell.ofInput input with
        | .error e => (.error (.invalidFormula e), d)
        | .ok k =>
          (.ok (),
            (d.record c (if k.isEmpty then none else some k)).withGrid (d.sheet.grid.put c k))
      else (.error (.outOfBounds c d.sheet.size), d) := by
  rw [setInput, run_get_bind]
  by_cases hc : d.sheet.size.contains c
  · rw [if_pos hc, if_pos hc]
    cases Cell.ofInput input <;> rfl
  · rw [if_neg hc, if_neg hc]
    rfl

theorem run_clear (d : Document) (c : CellRef) :
    (clear c).run d =
      ((), if c ∈ d.sheet.grid then (d.record c none).withGrid (d.sheet.grid.erase c) else d) :=
  rfl

/-! ### History -/

theorem run_undo (d : Document) :
    undo.run.run d =
      match d.past with
      | [] => (.error .nothingToUndo, d)
      | ch :: past =>
        (.ok ch.cell,
          { d with past, future := ⟨ch.cell, ch.old, d.sheet.grid[ch.cell]?⟩ :: d.future }.restore
            ch.cell ch.old) := by
  rcases d with ⟨sheet, past, future⟩
  cases past <;> rfl

theorem run_redo (d : Document) :
    redo.run.run d =
      match d.future with
      | [] => (.error .nothingToRedo, d)
      | ch :: future =>
        (.ok ch.cell,
          { d with past := ⟨ch.cell, d.sheet.grid[ch.cell]?, ch.new⟩ :: d.past, future }.restore
            ch.cell ch.new) := by
  rcases d with ⟨sheet, past, future⟩
  cases future <;> rfl

/-! ### Versions and reads -/

theorem run_endCycle (d : Document) :
    endCycle.run d =
      (d.sheet.version + 1, { d with sheet := { d.sheet with version := d.sheet.version + 1 } }) :=
  rfl

theorem run_reading (d : Document) (read : Sheet → α × Sheet) :
    (reading read).run d = ((read d.sheet).1, { d with sheet := (read d.sheet).2 }) :=
  rfl

private theorem run_lift (d : Document) (x : StateM Document α) :
    (liftM x : Edit α).run.run d = (.ok (x.run d).1, (x.run d).2) :=
  rfl

theorem formulaText_of_equals {s : String} {t : List Char}
    (h : Text.trimChars s.toList = '=' :: t) : formulaText s = String.ofList t := by
  rw [formulaText, h]
  rfl

theorem formulaText_of_head?_ne {s : String} (h : (Text.trimChars s.toList).head? ≠ some '=') :
    formulaText s = String.ofList (Text.trimChars s.toList) := by
  rw [formulaText]
  split
  · next t ht => exact absurd (by rw [ht, List.head?_cons]) h
  · rfl

theorem run_evaluate (d : Document) (s : String) :
    (evaluate s).run.run d =
      match Expr.parse (formulaText s) with
      | .error e => (.error (.invalidFormula e), d)
      | .ok e => (.ok (d.sheet.valueOf e).1, { d with sheet := (d.sheet.valueOf e).2 }) := by
  rw [evaluate]
  cases Expr.parse (formulaText s) with
  | error e => rfl
  | ok e => exact (run_lift d _).trans (by rw [run_reading])

end FormulaSheet.Document
