import FormulaSheet.CommandLine
import FormulaSheet.Proofs.Cell.Recreation
import FormulaSheet.Proofs.Document.Operation

/-!
# The last inputs of cells

The command line sets cells in order, so that later inputs of a cell replace earlier ones. When all
of them are accepted, the grid holds for every cell what its last input makes, and nothing where
that is blank. How many inputs there were, and in which order the cells were set, leaves no trace.

## Main definitions

* `CommandLine.lastInput?`: the last input of a cell, unless it is blank.
* `CommandLine.putAll`: the grid after some inputs.

## Main results

* `CommandLine.getElem?_putAll_empty`: the grid after some inputs in terms of the last ones.
* `CommandLine.sheet_run_setCells`: the sheet after accepted inputs.
-/

namespace FormulaSheet

open Grid

/-- Only a blank input makes an empty cell. -/
theorem Cell.isEmpty_of_ofInput {s : String} {k : Cell} (h : ofInput s = .ok k) :
    k.isEmpty = true ↔ Text.trimChars s.toList = [] := by
  obtain ⟨htrim, rfl⟩ | ⟨t, e, htrim, -, rfl⟩ | ⟨hne, -, rfl⟩ := ofInput_cases h
  · exact iff_of_true rfl htrim
  · rw [htrim]
    exact iff_of_false Bool.false_ne_true (List.cons_ne_nil '=' t)
  · have hplain : (ofPlain (Text.trimChars s.toList)).isEmpty = false := by
      rw [ofPlain]
      split
      · rfl
      · split <;> rfl
    rw [hplain]
    exact iff_of_false Bool.false_ne_true hne

namespace CommandLine

/-! ### The last inputs -/

/-- The last input that is given for a cell, unless it is blank. -/
def lastInput? (cells : List (CellRef × String)) (c : CellRef) : Option String :=
  match cells.reverse.find? (·.1 = c) with
  | some (_, input) => if Text.trimChars input.toList = [] then none else some input
  | none => none

theorem lastInput?_append_singleton (cells : List (CellRef × String)) (a : CellRef)
    (input : String) (c : CellRef) :
    lastInput? (cells ++ [(a, input)]) c =
      if c = a then if Text.trimChars input.toList = [] then none else some input
      else lastInput? cells c := by
  rw [lastInput?, List.reverse_append, List.reverse_singleton, List.singleton_append,
    List.find?_cons]
  by_cases hc : c = a
  · simp [hc]
  · simp [hc, Ne.symm hc, lastInput?]

theorem mem_of_lastInput? {cells : List (CellRef × String)} {c : CellRef} {input : String}
    (h : lastInput? cells c = some input) : (c, input) ∈ cells := by
  rw [lastInput?] at h
  split at h
  · next a input' hfind =>
    split_ifs at h
    obtain rfl : a = c := by simpa using List.find?_some hfind
    exact List.mem_reverse.1 (Option.some.inj h ▸ List.mem_of_find?_eq_some hfind)
  · cases h

/-- A cell without an input has no last one. -/
theorem lastInput?_of_notMem {cells : List (CellRef × String)} {c : CellRef}
    (h : c ∉ cells.map Prod.fst) : lastInput? cells c = none := by
  have hnone : cells.reverse.find? (·.1 = c) = none := by
    rw [List.find?_eq_none]
    rintro ⟨a, input⟩ hmem hac
    obtain rfl : a = c := by simpa using hac
    exact h (List.mem_map_of_mem (List.mem_reverse.1 hmem))
  rw [lastInput?, hnone]

/-- Last inputs are the same for all cells when they are for the cells that are given. -/
theorem lastInput?_congr {cells cells' : List (CellRef × String)}
    (h : ∀ a ∈ cells.map Prod.fst ++ cells'.map Prod.fst,
      lastInput? cells a = lastInput? cells' a) (c : CellRef) :
    lastInput? cells c = lastInput? cells' c := by
  by_cases hc : c ∈ cells.map Prod.fst ++ cells'.map Prod.fst
  · exact h c hc
  · rw [List.mem_append, not_or] at hc
    rw [lastInput?_of_notMem hc.1, lastInput?_of_notMem hc.2]

/-! ### The grid after some inputs -/

/-- The cell that an input makes, and an empty one where it makes none. -/
def cellOf (input : String) : Cell :=
  (Cell.ofInput input).toOption.getD .empty

/-- The grid after some inputs. -/
def putAll (g : Grid) (cells : List (CellRef × String)) : Grid :=
  cells.foldl (fun g p => g.put p.1 (cellOf p.2)) g

/-- What is stored for an input is the cell it makes, and nothing for a blank one. -/
theorem stored_cellOf (input : String) :
    (if (cellOf input).isEmpty then none else some (cellOf input)) =
      (if Text.trimChars input.toList = [] then none else some input).bind fun input =>
        (Cell.ofInput input).toOption := by
  cases hinput : Cell.ofInput input with
  | error e =>
    have hcell : cellOf input = .empty := by
      rw [cellOf, hinput]
      rfl
    rw [hcell, if_pos (show Cell.empty.isEmpty = true from rfl)]
    split_ifs
    · rfl
    · rw [Option.bind_some, hinput]
      rfl
  | ok k =>
    have hcell : cellOf input = k := by
      rw [cellOf, hinput]
      rfl
    have hempty := Cell.isEmpty_of_ofInput hinput
    rw [hcell]
    by_cases hblank : Text.trimChars input.toList = []
    · rw [if_pos (hempty.2 hblank), if_pos hblank, Option.bind_none]
    · rw [if_neg (mt hempty.1 hblank), if_neg hblank, Option.bind_some, hinput]
      rfl

/-- After some inputs each cell holds what its last input makes. -/
theorem getElem?_putAll_empty (cells : List (CellRef × String)) (c : CellRef) :
    (putAll ∅ cells)[c]? = (lastInput? cells c).bind fun input =>
      (Cell.ofInput input).toOption := by
  induction cells using List.reverseRecOn with
  | nil => simp [putAll, lastInput?]
  | append_singleton cells p ih =>
    obtain ⟨a, input⟩ := p
    have hput : putAll ∅ (cells ++ [(a, input)]) = (putAll ∅ cells).put a (cellOf input) := by
      simp [putAll]
    rw [hput, getElem?_put, lastInput?_append_singleton, ih, stored_cellOf]
    by_cases hc : c = a
    · rw [if_pos hc, if_pos hc]
    · rw [if_neg hc, if_neg hc]

/-- The last inputs decide what the grid holds. -/
theorem putAll_empty_congr {cells cells' : List (CellRef × String)}
    (h : ∀ c, lastInput? cells c = lastInput? cells' c) : putAll ∅ cells = putAll ∅ cells' := by
  apply Std.ExtTreeMap.ext_getElem?
  intro c
  rw [getElem?_putAll_empty, getElem?_putAll_empty, h]

/-! ### Setting cells -/

theorem run_lift_bind {α β : Type} (x : StateM Document α)
    (f : α → ExceptT Failure (StateM Document) β) (d : Document) :
    ((liftM x : ExceptT Failure (StateM Document) α) >>= f).run.run d =
      (f (x.run d).1).run.run (x.run d).2 :=
  rfl

theorem run_setCells_cons (d : Document) (c : CellRef) (input : String)
    (rest : List (CellRef × String)) :
    (setCells ((c, input) :: rest)).run.run d =
      match (Document.setInput c input).run.run d with
      | (.ok _, d') => (setCells rest).run.run d'
      | (.error e, d') => (.error (.cell c e), d') := by
  rw [setCells, run_lift_bind]
  generalize (Document.setInput c input).run.run d = p
  obtain ⟨r, d'⟩ := p
  cases r <;> rfl

/-- Setting cells succeeds when each cell lies in the sheet and each input makes a cell. Then all
inputs are in the grid, and nothing else of the sheet has changed. -/
theorem run_setCells_ok {d : Document} {cells : List (CellRef × String)}
    (h : ((setCells cells).run.run d).1 = .ok ()) :
    (∀ p ∈ cells, d.sheet.size.contains p.1 = true ∧ ∃ k, Cell.ofInput p.2 = .ok k) ∧
      ((setCells cells).run.run d).2.sheet =
        { d.sheet with grid := putAll d.sheet.grid cells } := by
  induction cells generalizing d with
  | nil => exact ⟨by simp, rfl⟩
  | cons p rest ih =>
    obtain ⟨c, input⟩ := p
    rw [run_setCells_cons, Document.run_setInput] at h ⊢
    by_cases hc : d.sheet.size.contains c = true
    · rw [if_pos hc] at h ⊢
      cases hinput : Cell.ofInput input with
      | error e => simp [hinput] at h
      | ok k =>
        simp only [hinput] at h ⊢
        obtain ⟨hrest, hsheet⟩ := ih h
        have hput : putAll d.sheet.grid ((c, input) :: rest) =
            putAll (d.sheet.grid.put c k) rest := by
          rw [putAll, List.foldl_cons, cellOf, hinput]
          rfl
        refine ⟨?_, hsheet.trans (by rw [hput]; rfl)⟩
        rintro p (_ | ⟨_, hp⟩)
        · exact ⟨hc, k, hinput⟩
        · exact hrest p hp
    · simp [if_neg hc] at h

/-- A cell is in the grid after accepted inputs when its last input is not blank. -/
theorem mem_putAll_empty_iff {cells : List (CellRef × String)}
    (h : ∀ p ∈ cells, ∃ k, Cell.ofInput p.2 = .ok k) (c : CellRef) :
    c ∈ putAll ∅ cells ↔ (lastInput? cells c).isSome = true := by
  rw [Std.ExtTreeMap.mem_iff_isSome_getElem?, getElem?_putAll_empty]
  cases hinput : lastInput? cells c with
  | none => simp
  | some input =>
    obtain ⟨k, hk⟩ := h _ (mem_of_lastInput? hinput)
    have hk : Cell.ofInput input = .ok k := hk
    rw [Option.bind_some, hk]
    simp [Except.toOption]

end CommandLine

end FormulaSheet
