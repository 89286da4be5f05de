import FormulaSheet.Proofs.Document.Step
import Mathlib.Logic.Function.Iterate

/-!
# The history of a document

The records on both sides of the history fit the grid: the newest record of the past ends with what
its cell holds now, the next one with what the cell held before that, and so on; the future is the
same with the two sides of each record exchanged. So undoing and redoing differ only in direction,
and what is shown for one of them follows for the other in the mirrored document.

## Main definitions

* `Document.contents`: the contents of the grid of a document.
* `Document.forget`: a document with nothing remembered, in its grid or in its history.
* `Document.mirror`: a document with past and future exchanged.
* `Document.Linked`, `Document.Consistent`: records that fit a grid, and documents of such records.

## Main results

* `Document.consistent_run`: every document that comes about is consistent.
* `Document.forget_redo_undo_iterate`: redoing as often as undoing restores the document.
-/

namespace FormulaSheet

/-! ### Records -/

namespace Change

/-- The record of the opposite change. -/
def inverse (ch : Change) : Change :=
  ⟨ch.cell, ch.new, ch.old⟩

/-- The record with nothing remembered. -/
def forget (ch : Change) : Change :=
  ⟨ch.cell, ch.old.map Cell.forget, ch.new.map Cell.forget⟩

@[simp] theorem inverse_inverse (ch : Change) : ch.inverse.inverse = ch :=
  rfl

theorem inverse_forget (ch : Change) : ch.forget.inverse = ch.inverse.forget :=
  rfl

end Change

namespace Grid

/-- Nothing that is remembered in a record is put back. -/
@[simp] theorem restore_map_forget (g : Grid) (c : CellRef) (state : Option Cell) :
    g.restore c (state.map Cell.forget) = g.restore c state := by
  cases state with
  | none => rfl
  | some k => simp [restore]

/-- Putting back what a cell holds into a grid that differs only there gives the same contents. -/
theorem restore_getElem? {g h : Grid} (hg : g.HasNoBlank) {c : CellRef}
    (hh : ∀ a : CellRef, a ≠ c → h[a]? = g.contents[a]?) : h.restore c g[c]? = g.contents := by
  apply Std.ExtTreeMap.ext_getElem?
  intro a
  rw [getElem?_restore _ _ (hg c)]
  by_cases ha : a = c
  · rw [if_pos ha, getElem?_contents, ha]
  · rw [if_neg ha, hh a ha]

/-- Putting back what a cell held into a grid where only this cell changed gives the same
contents. -/
theorem contents_restore_getElem? {g h : Grid} (hg : g.HasNoBlank) {c : CellRef}
    (hh : ∀ a : CellRef, a ≠ c → h[a]? = g[a]?) : h.contents.restore c g[c]? = g.contents := by
  refine restore_getElem? hg fun a ha => ?_
  rw [getElem?_contents, getElem?_contents, hh a ha]

/-- Putting back a cell, and then what was there before, gives the same contents. -/
theorem restore_restore {g : Grid} (hg : g.HasNoBlank) (c : CellRef) (state : Option Cell) :
    (g.contents.restore c state).restore c g[c]? = g.contents :=
  restore_getElem? hg fun _ ha => getElem?_restore_of_ne _ state ha

end Grid

namespace Document

open Grid

/-! ### Contents and mirror images -/

/-- The contents of the grid of a document. -/
def contents (d : Document) : Grid :=
  d.sheet.grid.contents

/-- The document with nothing remembered, in its grid or in its history. -/
def forget (d : Document) : Document :=
  ⟨{ d.sheet with grid := d.contents }, d.past.map Change.forget, d.future.map Change.forget⟩

/-- The document with past and future exchanged and all records turned around. -/
def mirror (d : Document) : Document :=
  ⟨d.sheet, d.future.map Change.inverse, d.past.map Change.inverse⟩

@[simp] theorem mirror_mirror (d : Document) : d.mirror.mirror = d := by
  rcases d with ⟨sheet, past, future⟩
  simp [mirror, Function.comp_def]

theorem forget_mirror (d : Document) : d.mirror.forget = d.forget.mirror := by
  rcases d with ⟨sheet, past, future⟩
  simp [mirror, forget, contents, Function.comp_def, Change.inverse_forget]

/-! ### Undoing and redoing -/

theorem after_undo (d : Document) :
    Operation.undo.after d =
      match d.past with
      | [] => d
      | ch :: past =>
        ⟨{ d.sheet with grid := d.sheet.grid.restore ch.cell ch.old }, past,
          ⟨ch.cell, ch.old, d.sheet.grid[ch.cell]?⟩ :: d.future⟩ := by
  rw [Operation.after, run_undo]
  cases d.past with
  | nil => rfl
  | cons ch past => exact restore_eq _ _ _

theorem after_redo (d : Document) :
    Operation.redo.after d =
      match d.future with
      | [] => d
      | ch :: future =>
        ⟨{ d.sheet with grid := d.sheet.grid.restore ch.cell ch.new },
          ⟨ch.cell, d.sheet.grid[ch.cell]?, ch.new⟩ :: d.past, future⟩ := by
  rw [Operation.after, run_redo]
  cases d.future with
  | nil => rfl
  | cons ch future => exact restore_eq _ _ _

/-- Redoing is undoing in the mirror. -/
theorem after_redo_eq_mirror (d : Document) :
    Operation.redo.after d = (Operation.undo.after d.mirror).mirror := by
  rcases d with ⟨sheet, past, future⟩
  rw [after_redo, after_undo]
  cases future with
  | nil => simp [mirror, Function.comp_def]
  | cons ch future => simp [mirror, Function.comp_def, Change.inverse]

theorem semiconj_mirror_redo :
    Function.Semiconj mirror Operation.redo.after Operation.undo.after := by
  intro d
  beta_reduce
  rw [after_redo_eq_mirror, mirror_mirror]

theorem semiconj_mirror_undo :
    Function.Semiconj mirror Operation.undo.after Operation.redo.after := by
  intro d
  beta_reduce
  rw [after_redo_eq_mirror, mirror_mirror]

/-- What undoing leaves behind does not depend on what is remembered. -/
theorem forget_after_undo (d : Document) :
    (Operation.undo.after d).forget = Operation.undo.after d.forget := by
  rcases d with ⟨sheet, past, future⟩
  rw [after_undo, after_undo]
  cases past with
  | nil => rfl
  | cons ch past =>
    simp only [forget, contents, contents_restore, List.map_cons, Change.forget,
      restore_map_forget, getElem?_contents]

/-- What redoing leaves behind does not depend on what is remembered. -/
theorem forget_after_redo (d : Document) :
    (Operation.redo.after d).forget = Operation.redo.after d.forget := by
  rw [after_redo_eq_mirror, forget_mirror, forget_after_undo, forget_mirror, after_redo_eq_mirror]

/-! ### Records that fit the grid -/

/-- The records, the newest one first, end with the contents `g`: each ends with what its cell holds
when the newer ones have been taken back. -/
inductive Linked : Grid → List Change → Prop where
  | nil {g} : Linked g []
  | cons {g ch chs} (hnew : ch.new.map Cell.forget = g[ch.cell]?) (hold : ch.old ≠ some .empty)
      (h : Linked (g.restore ch.cell ch.old) chs) : Linked g (ch :: chs)

theorem Linked.take {g : Grid} {chs : List Change} (h : Linked g chs) (n : Nat) :
    Linked g (chs.take n) := by
  induction h generalizing n with
  | nil => simpa using Linked.nil
  | cons hnew hold _ ih =>
    cases n with
    | zero => exact .nil
    | succ n => exact .cons hnew hold (ih n)

/-- No stored cell is empty, and both sides of the history fit the grid. -/
structure Consistent (d : Document) : Prop where
  hasNoBlank : d.sheet.grid.HasNoBlank
  past : Linked d.contents d.past
  future : Linked d.contents (d.future.map Change.inverse)

theorem consistent_blank (size : Size) : (blank size).Consistent :=
  ⟨hasNoBlank_empty, .nil, .nil⟩

theorem Consistent.mirror {d : Document} (hd : d.Consistent) : d.mirror.Consistent :=
  have hpast : (d.past.map Change.inverse).map Change.inverse = d.past := by
    simp [Function.comp_def]
  ⟨hd.hasNoBlank, hd.future, hpast.symm ▸ hd.past⟩

/-- An edit of one cell is recorded in front of records that fit the grid before it. -/
theorem Consistent.edit {d : Document} (hd : d.Consistent) {c : CellRef} {new : Option Cell}
    {g : Grid} (hg : g.HasNoBlank) (hnew : g[c]? = new)
    (hother : ∀ a : CellRef, a ≠ c → g[a]? = d.sheet.grid[a]?) :
    ((d.record c new).withGrid g).Consistent := by
  have hrestore : g.contents.restore c d.sheet.grid[c]? = d.contents :=
    contents_restore_getElem? hd.hasNoBlank hother
  refine ⟨hg, Linked.take (.cons ?_ (hd.hasNoBlank c) ?_) _, .nil⟩
  · rw [← hnew, ← getElem?_contents]
    rfl
  · exact hrestore.symm ▸ hd.past

theorem Consistent.after_undo {d : Document} (hd : d.Consistent) :
    (Operation.undo.after d).Consistent := by
  rw [Document.after_undo]
  rcases d with ⟨sheet, past, future⟩
  cases past with
  | nil => exact hd
  | cons ch past =>
    obtain ⟨hblank, hpast, hfuture⟩ := hd
    cases hpast with
    | cons hnew hold hpast =>
      have hcell : (sheet.grid.contents.restore ch.cell ch.old)[ch.cell]? =
          ch.old.map Cell.forget := by
        rw [getElem?_restore _ _ hold, if_pos rfl]
      have hundone : Linked (sheet.grid.restore ch.cell ch.old).contents past := by
        rw [contents_restore]
        exact hpast
      have hrecord : Linked (sheet.grid.restore ch.cell ch.old).contents
          (⟨ch.cell, sheet.grid[ch.cell]?, ch.old⟩ :: future.map Change.inverse) := by
        rw [contents_restore]
        refine .cons hcell.symm (hblank ch.cell) ?_
        rw [restore_restore hblank]
        exact hfuture
      exact ⟨hblank.restore _ _, hundone, hrecord⟩

theorem Consistent.after_redo {d : Document} (hd : d.Consistent) :
    (Operation.redo.after d).Consistent := by
  rw [after_redo_eq_mirror]
  exact hd.mirror.after_undo.mirror

/-- Every step keeps the records fitting the grid. -/
theorem Step.consistent {d d' : Document} {op : Operation} (h : Step d op d')
    (hd : d.Consistent) : d'.Consistent := by
  cases h with
  | outOfBounds | invalid | absent | nothingToUndo | nothingToRedo => exact hd
  | @set c _ k =>
    refine hd.edit (hd.hasNoBlank.put c k) ?_ fun a ha => getElem?_put_of_ne _ k ha
    rw [getElem?_put, if_pos rfl]
  | @cleared c =>
    refine hd.edit (hd.hasNoBlank.erase c) ?_ fun a ha => getElem?_erase_of_ne _ ha
    rw [getElem?_erase, if_pos rfl]
  | undone h =>
    have hundo := hd.after_undo
    rw [Document.after_undo, h] at hundo
    exact hundo
  | redone h =>
    have hredo := hd.after_redo
    rw [Document.after_redo, h] at hredo
    exact hredo
  | cycleEnded => exact ⟨hd.hasNoBlank, hd.past, hd.future⟩
  | @read _ g h =>
    have he : (d.withGrid g).contents = d.contents := h.contents_eq
    exact ⟨hd.hasNoBlank.of_contents_eq h.contents_eq, he.symm ▸ hd.past, he.symm ▸ hd.future⟩

/-- Every document that comes about is consistent. -/
theorem consistent_run (size : Size) (ops : List Operation) : (run size ops).Consistent :=
  run_induction (consistent_blank size) (fun hstep hd => hstep.consistent hd) ops

/-! ### There and back -/

theorem Consistent.forget_redo_undo {d : Document} (hd : d.Consistent) (h : d.past ≠ []) :
    (Operation.redo.after (Operation.undo.after d)).forget = d.forget := by
  rcases d with ⟨sheet, past, future⟩
  cases past with
  | nil => exact absurd rfl h
  | cons ch past =>
    obtain ⟨hblank, hpast, -⟩ := hd
    cases hpast with
    | cons hnew hold hpast =>
      have hgrid := restore_restore hblank ch.cell ch.old
      have hcell : ((sheet.grid.restore ch.cell ch.old)[ch.cell]?).map Cell.forget =
          ch.old.map Cell.forget := by
        rw [getElem?_restore _ _ hold, if_pos rfl]
        simp [Function.comp_def]
      have hnow : sheet.grid[ch.cell]?.map Cell.forget = ch.new.map Cell.forget := by
        rw [hnew, contents, getElem?_contents]
      rw [Document.after_undo, Document.after_redo]
      simp only [forget, contents, contents_restore, hgrid, List.map_cons, Change.forget, hcell,
        hnow]

theorem length_past_after_undo (d : Document) :
    (Operation.undo.after d).past.length = d.past.length - 1 := by
  rw [after_undo]
  cases h : d.past <;> simp [h]

/-- Redoing as often as undoing restores the document, up to what is remembered. -/
theorem Consistent.forget_redo_undo_iterate {d : Document} (hd : d.Consistent) {k : Nat}
    (hk : k ≤ d.past.length) :
    (Operation.redo.after^[k] (Operation.undo.after^[k] d)).forget = d.forget := by
  induction k generalizing d with
  | zero => rfl
  | succ k ih =>
    have hpast : d.past ≠ [] := by
      rintro h
      simp [h] at hk
    rw [Function.iterate_succ_apply', Function.iterate_succ_apply, forget_after_redo,
      ih hd.after_undo (by rw [length_past_after_undo]; omega), ← forget_after_redo,
      hd.forget_redo_undo hpast]

/-- Undoing as often as redoing restores the document, up to what is remembered. -/
theorem Consistent.forget_undo_redo_iterate {d : Document} (hd : d.Consistent) {k : Nat}
    (hk : k ≤ d.future.length) :
    (Operation.undo.after^[k] (Operation.redo.after^[k] d)).forget = d.forget := by
  have hk' : k ≤ d.mirror.past.length := by
    simpa [Document.mirror] using hk
  calc (Operation.undo.after^[k] (Operation.redo.after^[k] d)).forget
      = (Operation.undo.after^[k] (Operation.redo.after^[k] d.mirror.mirror)).forget := by
        rw [mirror_mirror]
    _ = (Operation.redo.after^[k] (Operation.undo.after^[k] d.mirror)).mirror.forget := by
        rw [← (semiconj_mirror_undo.iterate_right k).eq,
          ← (semiconj_mirror_redo.iterate_right k).eq]
    _ = d.forget := by
        rw [forget_mirror, hd.mirror.forget_redo_undo_iterate hk', forget_mirror, mirror_mirror]

end Document

end FormulaSheet
