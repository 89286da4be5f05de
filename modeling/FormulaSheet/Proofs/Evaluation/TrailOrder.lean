import FormulaSheet.Proofs.Evaluation.Fuel

/-!
# The order of a trail

A trail is asked for nothing but whether it contains a cell. It is kept as a list, with the cell
entered last in front, but neither the order nor repetitions in this list matter: on two trails with
the same cells evaluation gives the same and remembers the same.

## Main results

* `Evaluation.Runs.of_trail`: evaluation is the same on a trail with the same cells.
* `Sheet.values_ofList_congr`: so are the values of cells and expressions.
-/

namespace FormulaSheet

/-! ### Trails of given cells -/

namespace Trail

/-- One step of `ofList` adds its cell, whether it was on the trail or not. -/
private theorem mem_cells_getD_enter? (t : Trail) (a c : CellRef) :
    c ∈ ((t.enter? a).getD t).cells ↔ c = a ∨ c ∈ t.cells := by
  cases h : t.enter? a with
  | none =>
    have ha : a ∈ t.cells := (enter?_eq_none_iff t a).1 h
    exact ⟨.inr, fun hc => hc.elim (· ▸ ha) id⟩
  | some t' =>
    obtain ⟨-, rfl⟩ := (enter?_eq_some_iff t t' a).1 h
    exact List.mem_cons

/-- The trail of the given cells contains just these. -/
theorem mem_cells_ofList (cs : List CellRef) (c : CellRef) : c ∈ (ofList cs).cells ↔ c ∈ cs := by
  induction cs using List.reverseRecOn with
  | nil => exact Iff.rfl
  | append_singleton cs a ih =>
    rw [ofList, List.foldl_append, ← ofList]
    change c ∈ (((ofList cs).enter? a).getD (ofList cs)).cells ↔ _
    rw [mem_cells_getD_enter?, ih, List.mem_append, List.mem_singleton, or_comm]

end Trail

/-! ### Evaluation on a trail with the same cells -/

namespace Evaluation

variable {size : Size} {version : Nat}

/-- Evaluation is the same on a trail with the same cells. -/
theorem Runs.of_trail {t : Task} {s s' : State} {r : t.Result} (h : Runs size version t s r s')
    {u : Trail} (hu : ∀ c, c ∈ u.cells ↔ c ∈ s.trail.cells) :
    Runs size version t ⟨s.grid, u⟩ r ⟨s'.grid, u⟩ := by
  induction h generalizing u with
  | known hl => exact .known hl
  | @refused c e s hl hc =>
    refine .refused hl ((Trail.enter?_eq_none_iff _ _).2 ?_)
    exact (hu c).2 ((Trail.enter?_eq_none_iff _ _).1 hc)
  | @entered c e v s s' trail hl hc hrun ih =>
    obtain ⟨hoff, rfl⟩ := (Trail.enter?_eq_some_iff _ _ _).1 hc
    have henter : u.enter? c = some ⟨c :: u.cells⟩ :=
      (Trail.enter?_eq_some_iff _ _ _).2 ⟨mt (hu c).1 hoff, rfl⟩
    have hextended : ∀ a, a ∈ c :: u.cells ↔ a ∈ c :: s.trail.cells := fun a => by
      rw [List.mem_cons, List.mem_cons, hu]
    have hentered := Runs.entered (s := ⟨s.grid, u⟩) hl henter (ih hextended)
    rwa [Trail.leave_of_enter? henter] at hentered
  | constant => exact .constant
  | ref _ ih => exact .ref (ih hu)
  | binary hl _ ihl ihr => exact .binary (ihl hu) (ihr (hl.trail_eq ▸ hu))
  | unknown hf => exact .unknown hf
  | called hf _ ih => exact .called hf (ih hu)
  | calledError hf _ ih => exact .calledError hf (ih hu)
  | noArgs => exact .noArgs
  | argError _ ih => exact .argError (ih hu)
  | arg he _ ihe ihs => exact .arg (ihe hu) (ihs (he.trail_eq ▸ hu))

/-- Evaluation gives the same and remembers the same on trails of the same cells. -/
theorem Runs.eq_of_ofList {cs cs' : List CellRef} (h : ∀ a, a ∈ cs ↔ a ∈ cs') {t : Task} {g : Grid}
    {s s' : State} {r r' : t.Result} (hrun : Runs size version t ⟨g, .ofList cs⟩ r s)
    (hrun' : Runs size version t ⟨g, .ofList cs'⟩ r' s') : r = r' ∧ s.grid = s'.grid := by
  have hsame : ∀ a, a ∈ (Trail.ofList cs').cells ↔ a ∈ (Trail.ofList cs).cells := fun a => by
    rw [Trail.mem_cells_ofList, Trail.mem_cells_ofList, h]
  obtain ⟨hr, rfl⟩ := (hrun.of_trail hsame).unique hrun'
  exact ⟨hr, rfl⟩

end Evaluation

/-! ### Reading a sheet -/

namespace Sheet

open Evaluation

/-- **The order of a trail does not matter.** With the same cells on the trail, in whatever order
they were entered, cells and expressions have the same value and leave the same sheet behind. -/
theorem values_ofList_congr (s : Sheet) {cs cs' : List CellRef} (h : ∀ a, a ∈ cs ↔ a ∈ cs') :
    (∀ c, ∃ v s', (∃ trail, s.resolve (.ofList cs) c = (v, s', trail)) ∧
        ∃ trail, s.resolve (.ofList cs') c = (v, s', trail)) ∧
      ∀ e, ∃ v s', (∃ trail, s.execute (.ofList cs) e = (v, s', trail)) ∧
        ∃ trail, s.execute (.ofList cs') e = (v, s', trail) := by
  refine ⟨fun c => ?_, fun e => ?_⟩
  · obtain ⟨v, s₁, hv, hrun⟩ := s.exists_runs_resolve (.ofList cs) c
    obtain ⟨v', s₂, hv', hrun'⟩ := s.exists_runs_resolve (.ofList cs') c
    obtain ⟨rfl, hgrid⟩ := hrun.eq_of_ofList h hrun'
    exact ⟨v, _, ⟨_, hv⟩, _, hgrid ▸ hv'⟩
  · obtain ⟨v, s₁, hv, hrun⟩ := s.exists_runs_execute (.ofList cs) e
    obtain ⟨v', s₂, hv', hrun'⟩ := s.exists_runs_execute (.ofList cs') e
    obtain ⟨rfl, hgrid⟩ := hrun.eq_of_ofList h hrun'
    exact ⟨v, _, ⟨_, hv⟩, _, hgrid ▸ hv'⟩

end Sheet

end FormulaSheet
