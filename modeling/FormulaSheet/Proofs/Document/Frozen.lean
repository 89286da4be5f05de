import FormulaSheet.Proofs.Document.Step
import FormulaSheet.Proofs.Evaluation.Current
import FormulaSheet.Proofs.Evaluation.Versions

/-!
# Values within a version

Once the value of a formula cell was read it stays the same until there is a new version or the cell
itself is edited, whatever happens to the cells that its formula refers to. An edit of the cell, or
a step through the history that puts it back, leaves a formula there for which nothing is
remembered, so the next read computes it anew.

## Main definitions

* `Document.Operation.touched`: the cell that an operation changes.
* `Document.LeavesAlone`: operations that change neither a given cell nor the version.

## Main results

* `Document.Step.remembers`: a step keeps the values that count, except for the cell it touches.
* `Document.value_frozen`: a value that was read stays the same.
-/

namespace FormulaSheet

open Evaluation Grid

variable {c : CellRef} {v : Value}

/-! ### One read -/

namespace Sheet

variable {s : Sheet} {g : Grid}

/-- A read keeps every value that counts. -/
theorem AfterRead.remembers (h : s.AfterRead g) (hs : s.grid.Remembers s.version c v) :
    g.Remembers s.version c v := by
  obtain rfl | ⟨t, r, s', hrun, rfl⟩ := h
  · exact hs
  · exact hrun.remembers hs

/-- A value that counts is the value of its cell. -/
theorem value_eq_of_remembers (hc : s.size.contains c = true)
    (hs : s.grid.Remembers s.version c v) : (s.value c).1 = v := by
  obtain ⟨w, s', hw, hrun⟩ := s.exists_runs_value c
  rw [hw]
  exact (hrun.eq_of_remembers hc hs).1

/-- The value of a formula cell counts once it was read. -/
theorem remembers_value (hc : s.size.contains c = true) {f : Formula}
    (hf : s.grid[c]? = some (.formula f)) :
    (s.value c).2.grid.Remembers (s.value c).2.version c (s.value c).1 := by
  obtain ⟨w, s', hw, hrun⟩ := s.exists_runs_value c
  rw [hw]
  exact hrun.remembers_result hc hf List.not_mem_nil

end Sheet

/-! ### Nothing remembered -/

namespace Grid

variable {g : Grid} {f : Formula}

/-- A cell that was put back remembers nothing. -/
theorem memo_eq_none_of_getElem?_restore {state : Option Cell}
    (h : (g.restore c state)[c]? = some (.formula f)) : f.memo = none := by
  cases state with
  | none => exact absurd rfl (of_getElem?_erase h).1
  | some k =>
    obtain ⟨-, hk, -⟩ | ⟨hne, -⟩ := of_getElem?_put h
    · exact ((Cell.forget_eq_formula_iff k f).1 hk.symm).1
    · exact absurd rfl hne

end Grid

namespace Document

/-! ### Touched cells -/

/-- The cell that an operation on a document changes, if it succeeds in changing one. -/
def Operation.touched (d : Document) : Operation → Option CellRef
  | setInput c input => ((Document.setInput c input).run.run d).1.toOption.map fun _ => c
  | clear c => if c ∈ d.sheet.grid then some c else none
  | undo => (Document.undo.run.run d).1.toOption
  | redo => (Document.redo.run.run d).1.toOption
  | endCycle | read _ => none

/-- The document `d'` differs from `d` in the cell `c`, where nothing is remembered, and perhaps in
the history. -/
structure EditedAt (c : CellRef) (d d' : Document) : Prop where
  version_eq : d'.sheet.version = d.sheet.version
  getElem?_of_ne : ∀ a : CellRef, a ≠ c → d'.sheet.grid[a]? = d.sheet.grid[a]?
  memo_eq_none : ∀ f, d'.sheet.grid[c]? = some (.formula f) → f.memo = none

/-- A step edits the cell it touches. If it touches none it starts a new version or is a read, as
far as the grid is concerned. -/
theorem Step.editedAt_or_afterRead {d d' : Document} {op : Operation} (h : Step d op d') :
    (∃ c, op.touched d = some c ∧ EditedAt c d d') ∨
      op.touched d = none ∧ (op = .endCycle ∨
        d'.sheet.version = d.sheet.version ∧ d.sheet.AfterRead d'.sheet.grid) := by
  cases h with
  | outOfBounds hc =>
    exact .inr ⟨by simp [Operation.touched, run_setInput, hc, Except.toOption],
      .inr ⟨rfl, .inl rfl⟩⟩
  | invalid hc hk =>
    exact .inr ⟨by simp [Operation.touched, run_setInput, hc, hk, Except.toOption],
      .inr ⟨rfl, .inl rfl⟩⟩
  | @set c input k hc hk =>
    refine .inl ⟨c, by simp [Operation.touched, run_setInput, hc, hk, Except.toOption], rfl,
      fun a ha => getElem?_put_of_ne _ k ha, fun f hf => ?_⟩
    obtain ⟨-, rfl, -⟩ | ⟨hne, -⟩ := of_getElem?_put hf
    · exact ((Cell.forget_eq_formula_iff _ f).1 (Cell.forget_of_ofInput hk)).1
    · exact absurd rfl hne
  | absent hc => exact .inr ⟨by simp [Operation.touched, hc], .inr ⟨rfl, .inl rfl⟩⟩
  | @cleared c hc =>
    refine .inl ⟨c, by simp [Operation.touched, hc], rfl,
      fun a ha => getElem?_erase_of_ne _ ha, fun f hf => ?_⟩
    exact absurd rfl (of_getElem?_erase hf).1
  | nothingToUndo h =>
    exact .inr ⟨by simp [Operation.touched, run_undo, h, Except.toOption], .inr ⟨rfl, .inl rfl⟩⟩
  | @undone ch past h =>
    exact .inl ⟨ch.cell, by simp [Operation.touched, run_undo, h, Except.toOption], rfl,
      fun a ha => getElem?_restore_of_ne _ ch.old ha, fun f => memo_eq_none_of_getElem?_restore⟩
  | nothingToRedo h =>
    exact .inr ⟨by simp [Operation.touched, run_redo, h, Except.toOption], .inr ⟨rfl, .inl rfl⟩⟩
  | @redone ch future h =>
    exact .inl ⟨ch.cell, by simp [Operation.touched, run_redo, h, Except.toOption], rfl,
      fun a ha => getElem?_restore_of_ne _ ch.new ha, fun f => memo_eq_none_of_getElem?_restore⟩
  | cycleEnded => exact .inr ⟨rfl, .inl rfl⟩
  | read hread => exact .inr ⟨rfl, .inr ⟨rfl, hread⟩⟩

/-- A step within a version keeps every value that counts, except for the cell it touches. -/
theorem Step.remembers {d d' : Document} {op : Operation} (h : Step d op d')
    (hop : op ≠ .endCycle) (htouched : op.touched d ≠ some c)
    (hd : d.sheet.grid.Remembers d.sheet.version c v) :
    d'.sheet.grid.Remembers d'.sheet.version c v := by
  rcases h.editedAt_or_afterRead with ⟨a, ha, hedited⟩ | ⟨-, hend | ⟨hversion, hread⟩⟩
  · have hne : c ≠ a := by
      rintro rfl
      exact htouched ha
    rw [hedited.version_eq]
    exact hd.of_getElem?_eq (hedited.getElem?_of_ne c hne)
  · exact absurd hend hop
  · rw [hversion]
    exact hread.remembers hd

/-- Nothing is remembered for a formula in the cell that an operation touched. -/
theorem memo_eq_none_of_touched {d : Document} {op : Operation} (htouched : op.touched d = some c)
    {f : Formula} (hf : (op.after d).sheet.grid[c]? = some (.formula f)) : f.memo = none := by
  rcases (step_after d op).editedAt_or_afterRead with ⟨a, ha, hedited⟩ | ⟨hnone, -⟩
  · cases ha.symm.trans htouched
    exact hedited.memo_eq_none f hf
  · cases hnone.symm.trans htouched

/-! ### Runs within a version -/

/-- The operations, one after the other from the document `d`, neither touch the cell `c` nor start
a new version. -/
def LeavesAlone (c : CellRef) : Document → List Operation → Prop
  | _, [] => True
  | d, op :: ops => op ≠ .endCycle ∧ op.touched d ≠ some c ∧ LeavesAlone c (op.after d) ops

/-- Operations that leave a cell alone keep the value that counts for it. -/
theorem LeavesAlone.remembers {d : Document} {ops : List Operation} (h : LeavesAlone c d ops)
    (hd : d.sheet.grid.Remembers d.sheet.version c v) :
    (d.afterOperations ops).sheet.grid.Remembers (d.afterOperations ops).sheet.version c v := by
  induction ops generalizing d with
  | nil => exact hd
  | cons op ops ih =>
    obtain ⟨hop, htouched, hrest⟩ := h
    exact ih hrest ((step_after d op).remembers hop htouched hd)

/-- **A value that was read is frozen.** After any run, once the value of a formula cell was read it
is read again, the same number or error, after all further operations within the version that do not
touch the cell. When an operation touches a cell and leaves a formula there, nothing is remembered
for it. -/
theorem value_frozen (size : Size) (ops : List Operation) (c : CellRef) :
    let d := run size ops
    (∀ f, size.contains c = true → d.sheet.grid[c]? = some (.formula f) →
        ∀ later, LeavesAlone c ((value c).run d).2 later →
          ((value c).run (((value c).run d).2.afterOperations later)).1 = ((value c).run d).1) ∧
      ∀ (op : Operation) (f : Formula), op.touched d = some c →
        (op.after d).sheet.grid[c]? = some (.formula f) → f.memo = none := by
  intro d
  refine ⟨fun f hc hf later hlater => ?_, fun op f h hf => memo_eq_none_of_touched h hf⟩
  have hsize : d.sheet.size = size := size_run size ops
  have hlast : ((value c).run d).2.afterOperations later =
      run size (ops ++ .read (.value c) :: later) := by
    simp [run, afterOperations, d, Operation.after, Read.after]
  have hread : ((value c).run d).2.sheet.grid.Remembers ((value c).run d).2.sheet.version c
      ((value c).run d).1 := Sheet.remembers_value (hsize ▸ hc) hf
  refine Sheet.value_eq_of_remembers ?_ (hlater.remembers hread)
  rw [hlast, size_run]
  exact hc

/-- A formula that was read is replaced by another one; a cell above it refers to itself too. -/
private def replacingEdits : List Operation :=
  [.setInput ⟨0, 0⟩ "1", .setInput ⟨0, 1⟩ "=:0:0+1", .read (.value ⟨0, 1⟩),
    .setInput ⟨1, 0⟩ "=:0:1+:1:0", .setInput ⟨0, 1⟩ "=:0:0*3"]

/-- Edits of the cell below, an input for the formula cell that is refused, and reads. -/
private def editsBelow : List Operation :=
  [.setInput ⟨0, 0⟩ "10", .setInput ⟨0, 1⟩ "=1+", .read (.display ⟨1, 0⟩), .undo, .redo,
    .clear ⟨0, 0⟩, .read (.evaluate ":0:1+:1:0")]

/-- The value of a formula outlives the cell it refers to, and undoing brings back the formula that
was replaced without its value. -/
theorem value_frozen_replacedFormula :
    Size.contains ⟨2, 2⟩ ⟨0, 1⟩ = true ∧
      (∃ f, (run ⟨2, 2⟩ replacingEdits).sheet.grid[(⟨0, 1⟩ : CellRef)]? = some (.formula f)) ∧
      LeavesAlone ⟨0, 1⟩ ((value ⟨0, 1⟩).run (run ⟨2, 2⟩ replacingEdits)).2 editsBelow ∧
      ((value ⟨0, 1⟩).run (((value ⟨0, 1⟩).run (run ⟨2, 2⟩ replacingEdits)).2.afterOperations
        editsBelow)).1 = ((value ⟨0, 1⟩).run (run ⟨2, 2⟩ replacingEdits)).1 ∧
      Operation.undo.touched (run ⟨2, 2⟩ replacingEdits) = some ⟨0, 1⟩ ∧
      ∃ f : Formula, (Operation.undo.after (run ⟨2, 2⟩ replacingEdits)).sheet.grid[
        (⟨0, 1⟩ : CellRef)]? = some (.formula f) ∧ f.memo = none := by
  have hc : Size.contains ⟨2, 2⟩ ⟨0, 1⟩ = true := by decide
  obtain ⟨f, hf⟩ := mem_formulaCells.1
    (show ⟨0, 1⟩ ∈ (run ⟨2, 2⟩ replacingEdits).sheet.grid.formulaCells by decide +kernel)
  obtain ⟨f', hf'⟩ := mem_formulaCells.1
    (show ⟨0, 1⟩ ∈ (Operation.undo.after (run ⟨2, 2⟩ replacingEdits)).sheet.grid.formulaCells by
      decide +kernel)
  have hlater : LeavesAlone ⟨0, 1⟩ ((value ⟨0, 1⟩).run (run ⟨2, 2⟩ replacingEdits)).2 editsBelow :=
    ⟨nofun, by decide +kernel, nofun, by decide +kernel, nofun, by decide +kernel, nofun,
      by decide +kernel, nofun, by decide +kernel, nofun, by decide +kernel, nofun,
      by decide +kernel, trivial⟩
  have htouched : Operation.undo.touched (run ⟨2, 2⟩ replacingEdits) = some ⟨0, 1⟩ := by
    decide +kernel
  obtain ⟨hfrozen, hnone⟩ := value_frozen ⟨2, 2⟩ replacingEdits ⟨0, 1⟩
  exact ⟨hc, ⟨f, hf⟩, hlater, hfrozen f hc hf editsBelow hlater, htouched, f', hf',
    hnone .undo f' htouched hf'⟩

end Document

end FormulaSheet
