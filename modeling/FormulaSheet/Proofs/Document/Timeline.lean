import FormulaSheet.Proofs.Document.History
import FormulaSheet.Proofs.Evaluation.Versions

/-!
# The timeline of a document

A timeline is what a user sees of a history: the contents at present, those that undoing leads back
to and those that redoing leads on to. It knows nothing of records of single cells. An edit makes
the present the newest of the past, of which a limited number is kept, and forgets the future;
undoing and redoing move along the timeline; all else leaves it alone. A document, whose history
holds one cell before and after each edit, always shows such a timeline.

## Main definitions

* `Timeline`: past, present and future contents.
* `Timeline.after`, `Timeline.run`: the timeline after an operation and after a list of them.
* `Document.timeline`: the timeline that a document shows.

## Main results

* `Document.timeline_after`: one operation moves the timeline of a document as it should.
* `Document.follows_timeline`: so does every run, and it always leads back to where it came from.
-/

namespace FormulaSheet

open Document Grid

/-- Contents at present, in the past and in the future, the nearest first on both sides. -/
structure Timeline where
  past : List Grid
  present : Grid
  future : List Grid

namespace Timeline

/-- The timeline of a blank document. -/
def start : Timeline :=
  ⟨[], ∅, []⟩

/-- The present becomes the newest of the past, the oldest is dropped beyond the limit, and the
future is forgotten. -/
def advance (t : Timeline) (g : Grid) : Timeline :=
  ⟨(t.present :: t.past).take pastLimit, g, []⟩

/-- One step into the past, if there is one. -/
def back : Timeline → Timeline
  | ⟨g :: past, present, future⟩ => ⟨past, g, present :: future⟩
  | t => t

/-- One step into the future, if there is one. -/
def forward : Timeline → Timeline
  | ⟨past, present, g :: future⟩ => ⟨present :: past, g, future⟩
  | t => t

/-- The timeline after an operation on a document of the given size. -/
def after (size : Size) (t : Timeline) : Operation → Timeline
  | .setInput c input =>
    if size.contains c then
      match Cell.ofInput input with
      | .ok k => t.advance (t.present.put c k)
      | .error _ => t
    else t
  | .clear c => if c ∈ t.present then t.advance (t.present.erase c) else t
  | .undo => t.back
  | .redo => t.forward
  | .endCycle | .read _ => t

/-- The timeline after a list of operations on a blank document. -/
def run (size : Size) (ops : List Operation) : Timeline :=
  ops.foldl (after size) start

/-- The timeline with past and future exchanged. -/
def mirror (t : Timeline) : Timeline :=
  ⟨t.future, t.present, t.past⟩

theorem mirror_back_mirror (t : Timeline) : t.mirror.back.mirror = t.forward := by
  rcases t with ⟨past, present, _ | ⟨g, future⟩⟩ <;> rfl

theorem run_append_singleton (size : Size) (ops : List Operation) (op : Operation) :
    run size (ops ++ [op]) = (run size ops).after size op := by
  simp [run]

/-! ### The limit -/

/-- Past and future together are within the limit of the past. -/
theorem length_after_le (size : Size) {t : Timeline} (op : Operation)
    (ht : t.past.length + t.future.length ≤ pastLimit) :
    (t.after size op).past.length + (t.after size op).future.length ≤ pastLimit := by
  have hadvance : ∀ g, (t.advance g).past.length + (t.advance g).future.length ≤ pastLimit := by
    intro g
    simp only [advance, List.length_take, List.length_nil]
    omega
  rcases t with ⟨past, present, future⟩
  cases op with
  | setInput c input =>
    rw [after]
    split
    · split
      · exact hadvance _
      · exact ht
    · exact ht
  | clear c =>
    rw [after]
    split
    · exact hadvance _
    · exact ht
  | undo =>
    cases past with
    | nil => exact ht
    | cons g past =>
      simp only [after, back, List.length_cons] at ht ⊢
      omega
  | redo =>
    cases future with
    | nil => exact ht
    | cons g future =>
      simp only [after, forward, List.length_cons] at ht ⊢
      omega
  | endCycle | read => exact ht

theorem length_run_le (size : Size) (ops : List Operation) :
    (run size ops).past.length + (run size ops).future.length ≤ pastLimit := by
  induction ops using List.reverseRecOn with
  | nil => exact Nat.zero_le _
  | append_singleton ops op ih =>
    rw [run_append_singleton]
    exact length_after_le size op ih

end Timeline

namespace Document

/-! ### The timeline that a document shows -/

/-- The contents that taking back the records one by one leads through. -/
def unwind (g : Grid) : List Change → List Grid
  | [] => []
  | ch :: chs => g.restore ch.cell ch.old :: unwind (g.restore ch.cell ch.old) chs

/-- The timeline that a document shows: its contents, and those that undoing and redoing lead
through. -/
def timeline (d : Document) : Timeline :=
  ⟨unwind d.contents d.past, d.contents, unwind d.contents (d.future.map Change.inverse)⟩

theorem unwind_take (g : Grid) (chs : List Change) (n : Nat) :
    unwind g (chs.take n) = (unwind g chs).take n := by
  induction chs generalizing g n with
  | nil => simp [unwind]
  | cons ch chs ih =>
    cases n with
    | zero => rfl
    | succ n => simp [unwind, ih]

theorem unwind_eq_nil_iff (g : Grid) (chs : List Change) : unwind g chs = [] ↔ chs = [] := by
  cases chs <;> simp [unwind]

theorem length_unwind (g : Grid) (chs : List Change) : (unwind g chs).length = chs.length := by
  induction chs generalizing g with
  | nil => rfl
  | cons ch chs ih => simp [unwind, ih]

theorem timeline_mirror (d : Document) : d.mirror.timeline = d.timeline.mirror := by
  rcases d with ⟨sheet, past, future⟩
  simp [mirror, timeline, contents, Timeline.mirror, Function.comp_def]

/-- An edit of one cell advances the timeline. -/
theorem timeline_edit {d : Document} (hd : d.Consistent) {c : CellRef} (new : Option Cell)
    {g : Grid} (hother : ∀ a : CellRef, a ≠ c → g[a]? = d.sheet.grid[a]?) :
    ((d.record c new).withGrid g).timeline = d.timeline.advance g.contents := by
  have hrestore : g.contents.restore c d.sheet.grid[c]? = d.contents :=
    contents_restore_getElem? hd.hasNoBlank hother
  rw [timeline, Timeline.advance]
  congr 1
  rw [record, withGrid, unwind_take]
  congr 1
  rw [contents, unwind, hrestore, timeline]

theorem timeline_after_undo {d : Document} (hd : d.Consistent) :
    (Operation.undo.after d).timeline = d.timeline.back := by
  rw [after_undo]
  rcases d with ⟨sheet, past, future⟩
  cases past with
  | nil => rfl
  | cons ch past =>
    have hback := restore_restore hd.hasNoBlank ch.cell ch.old
    simp only [timeline, contents, unwind, contents_restore, Timeline.back, List.map_cons,
      Change.inverse, hback]

theorem timeline_after_redo {d : Document} (hd : d.Consistent) :
    (Operation.redo.after d).timeline = d.timeline.forward := by
  rw [after_redo_eq_mirror, timeline_mirror, timeline_after_undo hd.mirror, timeline_mirror,
    Timeline.mirror_back_mirror]

theorem timeline_set {d : Document} (hd : d.Consistent) {c : CellRef} {k : Cell}
    (new : Option Cell) : ((d.record c new).withGrid (d.sheet.grid.put c k)).timeline =
      d.timeline.advance (d.contents.put c k.forget) := by
  rw [contents, ← contents_put]
  exact timeline_edit hd new fun a ha => getElem?_put_of_ne _ k ha

theorem timeline_cleared {d : Document} (hd : d.Consistent) {c : CellRef} (new : Option Cell) :
    ((d.record c new).withGrid (d.sheet.grid.erase c)).timeline =
      d.timeline.advance (d.contents.erase c) := by
  rw [contents, ← contents_erase]
  exact timeline_edit hd new fun a ha => getElem?_erase_of_ne _ ha

/-- What shows the same contents, with the same records, shows the same timeline. -/
theorem timeline_withGrid {d : Document} {g : Grid} (h : d.sheet.AfterRead g) :
    (d.withGrid g).timeline = d.timeline := by
  have he : (d.withGrid g).contents = d.contents := h.contents_eq
  rw [timeline, he]
  rfl

/-- One operation moves the timeline of a document. -/
theorem timeline_after {d : Document} (hd : d.Consistent) (op : Operation) :
    (op.after d).timeline = d.timeline.after d.sheet.size op := by
  have hstep := step_after d op
  revert hstep
  generalize hd' : op.after d = d'
  rintro hstep
  cases hstep with
  | outOfBounds hc => simp [Timeline.after, hc]
  | invalid hc hk => simp [Timeline.after, hc, hk]
  | set hc hk =>
    rw [timeline_set hd, Cell.forget_of_ofInput hk]
    simp [Timeline.after, hc, hk, timeline]
  | absent hc => simp [Timeline.after, timeline, contents, mem_contents, hc]
  | cleared hc =>
    rw [timeline_cleared hd]
    simp [Timeline.after, timeline, contents, mem_contents, hc]
  | nothingToUndo | undone =>
    have hundo := timeline_after_undo hd
    rwa [hd'] at hundo
  | nothingToRedo | redone =>
    have hredo := timeline_after_redo hd
    rwa [hd'] at hredo
  | cycleEnded => rfl
  | read h => exact timeline_withGrid h

/-- The timeline of a document is that of the run it comes from. -/
theorem timeline_run (size : Size) (ops : List Operation) :
    (run size ops).timeline = Timeline.run size ops := by
  induction ops using List.reverseRecOn with
  | nil => simp [run, afterOperations, timeline, contents, blank, Sheet.blank, unwind, Timeline.run,
      Timeline.start]
  | append_singleton ops op ih =>
    rw [run_append_singleton, timeline_after (consistent_run size ops), ih, size_run,
      Timeline.run_append_singleton]

/-! ### What every operation does to the timeline -/

/-- The contents of `d'` are those of `d` except perhaps in the cell `c`. -/
def ChangesOnly (d : Document) (c : CellRef) (d' : Document) : Prop :=
  ∀ a : CellRef, a ≠ c → d'.contents[a]? = d.contents[a]?

theorem changesOnly_of_grid {d d' : Document} {c : CellRef}
    (h : ∀ a : CellRef, a ≠ c → d'.sheet.grid[a]? = d.sheet.grid[a]?) : d.ChangesOnly c d' := by
  intro a ha
  rw [contents, contents, getElem?_contents, getElem?_contents, h a ha]

theorem timeline_setInput_ok {d d' : Document} (hd : d.Consistent) {c : CellRef} {input : String}
    (h : (setInput c input).run.run d = (.ok (), d')) :
    d'.timeline = d.timeline.advance d'.contents ∧ d.ChangesOnly c d' := by
  rw [run_setInput] at h
  split at h
  · split at h
    · cases h
    · cases h
      exact ⟨timeline_edit hd _ fun a ha => getElem?_put_of_ne _ _ ha,
        changesOnly_of_grid fun a ha => getElem?_put_of_ne _ _ ha⟩
  · cases h

theorem eq_of_setInput_error {d d' : Document} {c : CellRef} {input : String} {e : EditError}
    (h : (setInput c input).run.run d = (.error e, d')) : d' = d := by
  rw [run_setInput] at h
  split at h
  · split at h <;> cases h
    rfl
  · cases h
    rfl

theorem timeline_undo_ok {d d' : Document} (hd : d.Consistent) {c : CellRef}
    (h : undo.run.run d = (.ok c, d')) : d'.timeline = d.timeline.back ∧ d.ChangesOnly c d' := by
  have hafter : d' = Operation.undo.after d := by rw [Operation.after, h]
  refine ⟨hafter ▸ timeline_after_undo hd, ?_⟩
  rw [run_undo] at h
  split at h
  · cases h
  · cases h
    refine changesOnly_of_grid fun a ha => ?_
    rw [restore_eq]
    exact getElem?_restore_of_ne _ _ ha

theorem timeline_redo_ok {d d' : Document} (hd : d.Consistent) {c : CellRef}
    (h : redo.run.run d = (.ok c, d')) :
    d'.timeline = d.timeline.forward ∧ d.ChangesOnly c d' := by
  have hafter : d' = Operation.redo.after d := by rw [Operation.after, h]
  refine ⟨hafter ▸ timeline_after_redo hd, ?_⟩
  rw [run_redo] at h
  split at h
  · cases h
  · cases h
    refine changesOnly_of_grid fun a ha => ?_
    rw [restore_eq]
    exact getElem?_restore_of_ne _ _ ha

/-- Undoing fails exactly when the timeline has no past. -/
theorem undo_error_iff (d d' : Document) :
    (∃ e, undo.run.run d = (.error e, d')) ↔ d.timeline.past = [] ∧ d' = d := by
  rw [timeline, unwind_eq_nil_iff, run_undo]
  cases d.past with
  | nil =>
    constructor
    · rintro ⟨e, h⟩
      cases h
      exact ⟨rfl, rfl⟩
    · rintro ⟨-, rfl⟩
      exact ⟨_, rfl⟩
  | cons ch past =>
    constructor
    · rintro ⟨e, h⟩
      cases h
    · rintro ⟨h, -⟩
      cases h

/-- Redoing fails exactly when the timeline has no future. -/
theorem redo_error_iff (d d' : Document) :
    (∃ e, redo.run.run d = (.error e, d')) ↔ d.timeline.future = [] ∧ d' = d := by
  rw [timeline, unwind_eq_nil_iff, List.map_eq_nil_iff, run_redo]
  cases d.future with
  | nil =>
    constructor
    · rintro ⟨e, h⟩
      cases h
      exact ⟨rfl, rfl⟩
    · rintro ⟨-, rfl⟩
      exact ⟨_, rfl⟩
  | cons ch future =>
    constructor
    · rintro ⟨e, h⟩
      cases h
    · rintro ⟨h, -⟩
      cases h

theorem length_past_timeline (d : Document) : d.timeline.past.length = d.past.length :=
  length_unwind _ _

theorem length_future_timeline (d : Document) : d.timeline.future.length = d.future.length :=
  (length_unwind _ _).trans (List.length_map _)

/-- The document `d` shows the timeline `t` and moves along it as each operation says. -/
structure Follows (d : Document) (t : Timeline) : Prop where
  timeline_eq : d.timeline = t
  /-- Past and future together hold no more than the past may. -/
  bounded : t.past.length + t.future.length ≤ pastLimit
  /-- An input that is stored, whatever was stored before, advances the timeline. -/
  set_ok : ∀ c input d', (setInput c input).run.run d = (.ok (), d') →
    d'.timeline = t.advance d'.contents ∧ d.ChangesOnly c d'
  set_error : ∀ c input e d', (setInput c input).run.run d = (.error e, d') → d'.timeline = t
  /-- Clearing a stored cell advances the timeline. -/
  clear_mem : ∀ c ∈ d.contents, ((clear c).run d).2.timeline = t.advance (d.contents.erase c)
  clear_not_mem : ∀ c, c ∉ d.contents → ((clear c).run d).2.timeline = t
  /-- Undoing goes one step back and changes the cell it gives. -/
  undo_ok : ∀ c d', undo.run.run d = (.ok c, d') → d'.timeline = t.back ∧ d.ChangesOnly c d'
  /-- Undoing fails without a past, and then it changes nothing. -/
  undo_error_iff : ∀ d', (∃ e, undo.run.run d = (.error e, d')) ↔ t.past = [] ∧ d' = d
  /-- Redoing goes one step forward and changes the cell it gives. -/
  redo_ok : ∀ c d', redo.run.run d = (.ok c, d') → d'.timeline = t.forward ∧ d.ChangesOnly c d'
  /-- Redoing fails without a future, and then it changes nothing. -/
  redo_error_iff : ∀ d', (∃ e, redo.run.run d = (.error e, d')) ↔ t.future = [] ∧ d' = d
  endCycle : (endCycle.run d).2.timeline = t
  read : ∀ r : Read, (r.after d).timeline = t
  /-- Undoing and redoing equally often restores all but what is remembered. -/
  redo_undo : ∀ k ≤ t.past.length,
    (Operation.redo.after^[k] (Operation.undo.after^[k] d)).forget = d.forget
  /-- Redoing and undoing equally often restores all but what is remembered. -/
  undo_redo : ∀ k ≤ t.future.length,
    (Operation.undo.after^[k] (Operation.redo.after^[k] d)).forget = d.forget

/-- **The history of a document is a bounded timeline.** After every run a document shows the
timeline of the run, all operations move it along that timeline, and steps along it can be taken
back. -/
theorem follows_timeline (size : Size) (ops : List Operation) :
    (run size ops).Follows (Timeline.run size ops) := by
  have hd := consistent_run size ops
  have hbounded := Timeline.length_run_le size ops
  rw [← timeline_run] at hbounded ⊢
  generalize run size ops = d at hd hbounded ⊢
  exact {
    timeline_eq := rfl
    bounded := hbounded
    set_ok := fun c input d' h => timeline_setInput_ok hd h
    set_error := fun c input e d' h => by rw [eq_of_setInput_error h]
    clear_mem := fun c hc => by
      rw [contents, mem_contents] at hc
      rw [run_clear, if_pos hc, timeline_cleared hd]
    clear_not_mem := fun c hc => by
      rw [contents, mem_contents] at hc
      rw [run_clear, if_neg hc]
    undo_ok := fun c d' h => timeline_undo_ok hd h
    undo_error_iff := d.undo_error_iff
    redo_ok := fun c d' h => timeline_redo_ok hd h
    redo_error_iff := d.redo_error_iff
    endCycle := rfl
    read := fun r => timeline_after hd (.read r)
    redo_undo := fun k hk => hd.forget_redo_undo_iterate (d.length_past_timeline ▸ hk)
    undo_redo := fun k hk => hd.forget_undo_redo_iterate (d.length_future_timeline ▸ hk) }

end Document

end FormulaSheet
