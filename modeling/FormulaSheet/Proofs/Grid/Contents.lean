import FormulaSheet.Grid
import Mathlib.Tactic.Common

/-!
# The contents of a grid

The contents of a grid are its cells with nothing remembered for the formulas. Reading a sheet
changes what is remembered but never the contents. An edit changes the contents in one place: each
way to change a grid is described by a lookup in the changed grid, and by its effect on the
contents.

## Main definitions

* `Grid.contents`: the grid with nothing remembered anywhere.
* `Grid.restore`: the grid with a cell put back as a history holds it.
* `Grid.HasNoBlank`: no stored cell is empty.

## Main results

* `Grid.of_getElem?_put`, `Grid.of_getElem?_erase`: where what is stored after an edit comes from.
* `Grid.contents_remember`: remembering a value keeps the contents.
* `Grid.exists_formula_of_contents_eq`: grids of the same contents hold the same formulas.
-/

namespace FormulaSheet

/-! ### Forgetting in a cell -/

namespace Cell

@[simp] theorem forget_forget (k : Cell) : k.forget.forget = k.forget := by
  cases k <;> rfl

@[simp] theorem forget_remember (v : Value) (n : Nat) (k : Cell) :
    (k.remember v n).forget = k.forget := by
  cases k <;> rfl

@[simp] theorem isEmpty_forget (k : Cell) : k.forget.isEmpty = k.isEmpty := by
  cases k <;> rfl

theorem isEmpty_iff (k : Cell) : k.isEmpty = true ↔ k = .empty := by
  cases k <;> simp [isEmpty]

/-- Only a formula becomes a formula with nothing remembered. -/
theorem forget_eq_formula_iff (k : Cell) (f : Formula) :
    k.forget = .formula f ↔ f.memo = none ∧ ∃ m, k = .formula ⟨f.expr, m⟩ := by
  rcases f with ⟨e, m⟩
  cases k with
  | formula f =>
    rcases f with ⟨e', m'⟩
    simp only [forget, formula.injEq, Formula.mk.injEq]
    constructor
    · rintro ⟨rfl, rfl⟩
      exact ⟨rfl, m', rfl, rfl⟩
    · rintro ⟨rfl, m, rfl, -⟩
      exact ⟨rfl, rfl⟩
  | empty | number | text => simp [forget]

end Cell

namespace Grid

/-! ### Lookups in a changed grid -/

theorem getElem?_put (g : Grid) (c : CellRef) (k : Cell) (a : CellRef) :
    (g.put c k)[a]? = if a = c then (if k.isEmpty then none else some k) else g[a]? := by
  by_cases hk : k.isEmpty
  · by_cases ha : a = c
    · simp [put, hk, ha]
    · simp [put, hk, ha, Std.ExtTreeMap.getElem?_erase, Ne.symm ha]
  · by_cases ha : a = c
    · simp [put, hk, ha]
    · simp [put, hk, ha, Std.ExtTreeMap.getElem?_insert, Ne.symm ha]

theorem getElem?_erase (g : Grid) (c a : CellRef) :
    (g.erase c)[a]? = if a = c then none else g[a]? := by
  by_cases ha : a = c
  · simp [ha]
  · simp [ha, Std.ExtTreeMap.getElem?_erase, Ne.symm ha]

theorem getElem?_put_of_ne (g : Grid) {c a : CellRef} (k : Cell) (ha : a ≠ c) :
    (g.put c k)[a]? = g[a]? := by
  rw [getElem?_put, if_neg ha]

theorem getElem?_erase_of_ne (g : Grid) {c a : CellRef} (ha : a ≠ c) :
    (g.erase c)[a]? = g[a]? := by
  rw [getElem?_erase, if_neg ha]

/-- What is stored once `k` was put at `c` is `k` there, and what was stored before elsewhere. -/
theorem of_getElem?_put {g : Grid} {c a : CellRef} {k k' : Cell} (h : (g.put c k)[a]? = some k') :
    (a = c ∧ k' = k ∧ k.isEmpty = false) ∨ (a ≠ c ∧ g[a]? = some k') := by
  rw [getElem?_put] at h
  split_ifs at h with ha hk
  · exact .inl ⟨ha, (Option.some.inj h).symm, by simpa using hk⟩
  · exact .inr ⟨ha, h⟩

/-- What is stored once `c` was erased was stored before, and elsewhere. -/
theorem of_getElem?_erase {g : Grid} {c a : CellRef} {k : Cell}
    (h : (g.erase c)[a]? = some k) : a ≠ c ∧ g[a]? = some k := by
  rw [getElem?_erase] at h
  split_ifs at h with ha
  exact ⟨ha, h⟩

theorem getElem?_remember (g : Grid) (c : CellRef) (v : Value) (n : Nat) (a : CellRef) :
    (g.remember c v n)[a]? = if a = c then g[c]?.map (Cell.remember v n) else g[a]? := by
  by_cases ha : a = c
  · simp [remember, ha]
  · simp [remember, ha, Std.ExtTreeMap.getElem?_modify, Ne.symm ha]

theorem getElem?_forget (g : Grid) (c a : CellRef) :
    (g.forget c)[a]? = if a = c then g[c]?.map Cell.forget else g[a]? := by
  by_cases ha : a = c
  · simp [forget, ha]
  · simp [forget, ha, Std.ExtTreeMap.getElem?_modify, Ne.symm ha]

/-! ### Contents -/

/-- The grid with nothing remembered for any formula. -/
def contents (g : Grid) : Grid :=
  g.map fun _ k => k.forget

@[simp] theorem getElem?_contents (g : Grid) (a : CellRef) :
    g.contents[a]? = g[a]?.map Cell.forget := by
  simp [contents]

theorem contents_eq_iff {g h : Grid} :
    g.contents = h.contents ↔ ∀ a : CellRef, g[a]?.map Cell.forget = h[a]?.map Cell.forget := by
  constructor
  · intro e a
    rw [← getElem?_contents, ← getElem?_contents, e]
  · intro e
    apply Std.ExtTreeMap.ext_getElem?
    simpa using e

@[simp] theorem contents_empty : contents ∅ = ∅ := by
  apply Std.ExtTreeMap.ext_getElem?
  simp

/-- Remembering a value changes no contents. -/
@[simp] theorem contents_remember (g : Grid) (c : CellRef) (v : Value) (n : Nat) :
    (g.remember c v n).contents = g.contents := by
  rw [contents_eq_iff]
  intro a
  rw [getElem?_remember]
  split_ifs with ha
  · simp [ha, Function.comp_def]
  · rfl

/-- Forgetting a value changes no contents. -/
@[simp] theorem contents_forget (g : Grid) (c : CellRef) : (g.forget c).contents = g.contents := by
  rw [contents_eq_iff]
  intro a
  rw [getElem?_forget]
  split_ifs with ha
  · simp [ha, Function.comp_def]
  · rfl

theorem contents_put (g : Grid) (c : CellRef) (k : Cell) :
    (g.put c k).contents = g.contents.put c k.forget := by
  apply Std.ExtTreeMap.ext_getElem?
  intro a
  rw [getElem?_contents, getElem?_put, getElem?_put, getElem?_contents, Cell.isEmpty_forget]
  split_ifs <;> rfl

theorem contents_erase (g : Grid) (c : CellRef) :
    contents (g.erase c) = g.contents.erase c := by
  apply Std.ExtTreeMap.ext_getElem?
  intro a
  rw [getElem?_contents, getElem?_erase, getElem?_erase, getElem?_contents]
  split_ifs <;> rfl

theorem mem_contents (g : Grid) (c : CellRef) : c ∈ g.contents ↔ c ∈ g := by
  rw [Std.ExtTreeMap.mem_iff_isSome_getElem?, Std.ExtTreeMap.mem_iff_isSome_getElem?]
  simp

/-- Two grids of the same contents hold formulas of the same expressions in the same places. -/
theorem exists_formula_of_contents_eq {g h : Grid} (e : g.contents = h.contents) {a : CellRef}
    {f : Formula} (hf : g[a]? = some (.formula f)) :
    ∃ m, h[a]? = some (.formula ⟨f.expr, m⟩) := by
  have ha := contents_eq_iff.1 e a
  rw [hf, Option.map_some] at ha
  obtain ⟨k, hk, hk'⟩ := Option.map_eq_some_iff.1 ha.symm
  obtain ⟨-, m, rfl⟩ := (Cell.forget_eq_formula_iff k _).1 hk'
  exact ⟨m, hk⟩

/-! ### Putting back -/

/-- The grid with `state` put back at `c` and nothing remembered there. -/
def restore (g : Grid) (c : CellRef) (state : Option Cell) : Grid :=
  match state with
  | some k => g.put c k.forget
  | none => g.erase c

theorem getElem?_restore (g : Grid) (c : CellRef) {state : Option Cell} (h : state ≠ some .empty)
    (a : CellRef) :
    (g.restore c state)[a]? = if a = c then state.map Cell.forget else g[a]? := by
  cases state with
  | none => exact getElem?_erase g c a
  | some k =>
    have hk : k.isEmpty = false := by
      rw [Bool.eq_false_iff]
      exact fun hempty => h (congrArg some ((Cell.isEmpty_iff k).1 hempty))
    rw [restore, getElem?_put, Cell.isEmpty_forget, hk]
    rfl

theorem getElem?_restore_of_ne (g : Grid) {c a : CellRef} (state : Option Cell) (ha : a ≠ c) :
    (g.restore c state)[a]? = g[a]? := by
  cases state with
  | none => exact getElem?_erase_of_ne g ha
  | some k => exact getElem?_put_of_ne g k.forget ha

theorem contents_restore (g : Grid) (c : CellRef) (state : Option Cell) :
    (g.restore c state).contents = g.contents.restore c state := by
  cases state with
  | none => exact contents_erase g c
  | some k => exact (contents_put g c k.forget).trans (by rw [Cell.forget_forget, restore])

/-! ### Blank cells -/

/-- No stored cell is empty. -/
def HasNoBlank (g : Grid) : Prop :=
  ∀ c : CellRef, g[c]? ≠ some .empty

theorem hasNoBlank_empty : HasNoBlank ∅ := by
  intro c
  simp

theorem HasNoBlank.put {g : Grid} (h : g.HasNoBlank) (c : CellRef) (k : Cell) :
    (g.put c k).HasNoBlank := by
  intro a ha
  obtain ⟨-, rfl, hk⟩ | ⟨-, ha⟩ := of_getElem?_put ha
  · cases hk
  · exact h a ha

theorem HasNoBlank.erase {g : Grid} (h : g.HasNoBlank) (c : CellRef) :
    HasNoBlank (g.erase c) :=
  fun a ha => h a (of_getElem?_erase ha).2

theorem HasNoBlank.restore {g : Grid} (h : g.HasNoBlank) (c : CellRef) (state : Option Cell) :
    (g.restore c state).HasNoBlank := by
  cases state with
  | none => exact h.erase c
  | some k => exact h.put c k.forget

theorem HasNoBlank.of_contents_eq {g g' : Grid} (h : g.HasNoBlank)
    (e : g'.contents = g.contents) : g'.HasNoBlank := by
  intro a ha
  have hmap := contents_eq_iff.1 e a
  rw [ha, Option.map_some] at hmap
  obtain ⟨k, hk, hk'⟩ := Option.map_eq_some_iff.1 hmap.symm
  have hempty : k = .empty := by
    rw [← Cell.isEmpty_iff, ← Cell.isEmpty_forget, hk']
    rfl
  exact h a (hempty ▸ hk)

end Grid

end FormulaSheet
