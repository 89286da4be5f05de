import FormulaSheet.Proofs.Document.Operation
import FormulaSheet.Proofs.Evaluation.Termination
import Mathlib.Data.List.Induction

/-!
# Steps of a document

All that an operation can do to a document, in one list: which operations change nothing, and what
the others change. Whatever is read, the only thing that changes is what the grid remembers, and
that changes by an evaluation on the empty trail. An invariant of documents is one case analysis on
this list.

## Main definitions

* `Sheet.AfterRead`: a grid that a read can leave behind.
* `Document.Step`: the steps.

## Main results

* `Document.step_after`: every operation takes a step.
-/

namespace FormulaSheet

/-! ### One read -/

namespace Sheet

open Evaluation

/-- The grid `g` can be left behind by a read of the sheet: it is the old one, or an evaluation on
the empty trail ended with it. -/
def AfterRead (s : Sheet) (g : Grid) : Prop :=
  g = s.grid ∨ ∃ (t : Task) (r : t.Result) (s' : State),
    Runs s.size s.version t ⟨s.grid, .empty⟩ r s' ∧ s'.grid = g

theorem AfterRead.contents_eq {s : Sheet} {g : Grid} (h : s.AfterRead g) :
    g.contents = s.grid.contents := by
  obtain rfl | ⟨t, r, s', hrun, rfl⟩ := h
  · rfl
  · exact hrun.contents_eq

/-- Reading the value of a cell leaves such a grid behind. -/
theorem exists_afterRead_value (s : Sheet) (c : CellRef) :
    ∃ g, (s.value c).2 = { s with grid := g } ∧ s.AfterRead g := by
  obtain ⟨v, s', hv, hrun⟩ := s.exists_runs_value c
  exact ⟨s'.grid, by rw [hv], .inr ⟨.cell c, v, s', hrun, rfl⟩⟩

/-- Evaluating an expression leaves such a grid behind. -/
theorem exists_afterRead_valueOf (s : Sheet) (e : Expr) :
    ∃ g, (s.valueOf e).2 = { s with grid := g } ∧ s.AfterRead g := by
  obtain ⟨v, s', hv, hrun⟩ := s.exists_runs_valueOf e
  exact ⟨s'.grid, by rw [hv], .inr ⟨.expr e, v, s', hrun, rfl⟩⟩

end Sheet

namespace Document

/-- A read changes the grid by an evaluation and nothing else. -/
theorem Read.exists_after_eq (d : Document) (r : Read) :
    ∃ g, r.after d = d.withGrid g ∧ d.sheet.AfterRead g := by
  cases r with
  | value c =>
    obtain ⟨g, hg, hread⟩ := d.sheet.exists_afterRead_value c
    exact ⟨g, by rw [Read.after, Document.value, run_reading, hg, withGrid], hread⟩
  | display c =>
    rw [Read.after, Document.display, run_reading, Sheet.display]
    split
    · exact ⟨_, rfl, .inl rfl⟩
    · exact ⟨_, rfl, .inl rfl⟩
    · exact ⟨_, rfl, .inl rfl⟩
    · exact ⟨_, rfl, .inl rfl⟩
    · obtain ⟨g, hg, hread⟩ := d.sheet.exists_afterRead_value c
      exact ⟨g, by rw [hg, withGrid], hread⟩
  | evaluate text =>
    rw [Read.after, run_evaluate]
    split
    · exact ⟨_, rfl, .inl rfl⟩
    · next e _ =>
      obtain ⟨g, hg, hread⟩ := d.sheet.exists_afterRead_valueOf e
      exact ⟨g, by rw [hg, withGrid], hread⟩

/-! ### All steps -/

/-- `Step d op d'` says how the operation `op` takes the document `d` to `d'`. -/
inductive Step (d : Document) : Operation → Document → Prop where
  | outOfBounds {c input} (hc : d.sheet.size.contains c = false) : Step d (.setInput c input) d
  | invalid {c input e} (hc : d.sheet.size.contains c = true) (hk : Cell.ofInput input = .error e) :
      Step d (.setInput c input) d
  | set {c input k} (hc : d.sheet.size.contains c = true) (hk : Cell.ofInput input = .ok k) :
      Step d (.setInput c input)
        ((d.record c (if k.isEmpty then none else some k)).withGrid (d.sheet.grid.put c k))
  | absent {c} (hc : c ∉ d.sheet.grid) : Step d (.clear c) d
  | cleared {c} (hc : c ∈ d.sheet.grid) :
      Step d (.clear c) ((d.record c none).withGrid (d.sheet.grid.erase c))
  | nothingToUndo (h : d.past = []) : Step d .undo d
  | undone {ch past} (h : d.past = ch :: past) :
      Step d .undo
        ⟨{ d.sheet with grid := d.sheet.grid.restore ch.cell ch.old }, past,
          ⟨ch.cell, ch.old, d.sheet.grid[ch.cell]?⟩ :: d.future⟩
  | nothingToRedo (h : d.future = []) : Step d .redo d
  | redone {ch future} (h : d.future = ch :: future) :
      Step d .redo
        ⟨{ d.sheet with grid := d.sheet.grid.restore ch.cell ch.new },
          ⟨ch.cell, d.sheet.grid[ch.cell]?, ch.new⟩ :: d.past, future⟩
  | cycleEnded :
      Step d .endCycle { d with sheet := { d.sheet with version := d.sheet.version + 1 } }
  | read {r g} (h : d.sheet.AfterRead g) : Step d (.read r) (d.withGrid g)

theorem restore_eq (d : Document) (c : CellRef) (state : Option Cell) :
    d.restore c state = d.withGrid (d.sheet.grid.restore c state) := by
  cases state <;> rfl

/-- Every operation takes a step. -/
theorem step_after (d : Document) (op : Operation) : Step d op (op.after d) := by
  cases op with
  | setInput c input =>
    rw [Operation.after, run_setInput]
    by_cases hc : d.sheet.size.contains c = true
    · rw [if_pos hc]
      cases hk : Cell.ofInput input with
      | error e => exact .invalid hc hk
      | ok k => exact .set hc hk
    · rw [if_neg hc]
      exact .outOfBounds (by simpa using hc)
  | clear c =>
    rw [Operation.after, run_clear]
    by_cases hc : c ∈ d.sheet.grid
    · rw [if_pos hc]
      exact .cleared hc
    · rw [if_neg hc]
      exact .absent hc
  | undo =>
    rw [Operation.after, run_undo]
    cases h : d.past with
    | nil => exact .nothingToUndo h
    | cons ch past =>
      simp only [restore_eq]
      exact .undone h
  | redo =>
    rw [Operation.after, run_redo]
    cases h : d.future with
    | nil => exact .nothingToRedo h
    | cons ch future =>
      simp only [restore_eq]
      exact .redone h
  | endCycle =>
    rw [Operation.after, run_endCycle]
    exact .cycleEnded
  | read r =>
    obtain ⟨g, hg, hread⟩ := r.exists_after_eq d
    rw [Operation.after, hg]
    exact .read hread

/-- What holds of the blank document and is kept by every step holds after every run. -/
theorem run_induction {size : Size} {P : Document → Prop} (hblank : P (blank size))
    (hstep : ∀ {d op d'}, Step d op d' → P d → P d') (ops : List Operation) : P (run size ops) := by
  induction ops using List.reverseRecOn with
  | nil => exact hblank
  | append_singleton ops op ih =>
    rw [run_append_singleton]
    exact hstep (step_after _ op) ih

/-- No step changes the size of the sheet. -/
theorem size_run (size : Size) (ops : List Operation) : (run size ops).sheet.size = size := by
  refine run_induction (P := fun d => d.sheet.size = size) rfl ?_ ops
  intro d op d' hstep hd
  cases hstep <;> exact hd

end Document

end FormulaSheet
