import FormulaSheet.Sheet

/-!
# The cells of a sheet in order

The cells of a grid are found in any order. They are listed in row-major order all the same, each of
them once, because they are sorted by their references. No two cells have the same one, so the list
does not depend on the order in which the cells were found.

## Main definitions

* `CellRef.Before`: row-major order.

## Main results

* `Sheet.mem_cells`, `Sheet.pairwise_before_cells`: which cells are listed, and in which order.
* `Sheet.cells_eq`: the list is the same whatever order the cells are found in.
-/

namespace FormulaSheet

/-! ### Row-major order -/

namespace CellRef

/-- A cell comes before another one in row-major order. -/
def Before (a b : CellRef) : Prop :=
  a.row < b.row ∨ (a.row = b.row ∧ a.col < b.col)

theorem compare_eq_lt_iff (a b : CellRef) : compare a b = .lt ↔ a.Before b := by
  change (compare a.row b.row).then (compare a.col b.col) = .lt ↔ _
  rw [Ordering.then_eq_lt, Std.compare_eq_lt, Std.compare_eq_lt, Std.compare_eq_iff_eq, Before]

/-- Of two cells not both come before the other. -/
theorem Before.asymm {a b : CellRef} (h : a.Before b) : ¬ b.Before a := by
  rw [← compare_eq_lt_iff] at h ⊢
  rw [Std.OrientedOrd.eq_swap, h]
  decide

end CellRef

namespace Sheet

variable {s : Sheet} {order : Grid.Enumeration} {c : CellRef} {k : Cell}

/-- Sorting loses no cell and makes up none. -/
theorem cells_perm (s : Sheet) (order : Grid.Enumeration) :
    (s.cells order).Perm s.grid.toList :=
  (List.mergeSort_perm _ _).trans (order.perm s.grid)

/-- The cells of the grid are listed. -/
theorem mem_cells : (c, k) ∈ s.cells order ↔ s.grid[c]? = some k := by
  rw [(cells_perm s order).mem_iff, Std.ExtTreeMap.mem_toList_iff_getElem?_eq_some]

theorem mem_map_fst_cells : c ∈ (s.cells order).map Prod.fst ↔ c ∈ s.grid := by
  rw [((cells_perm s order).map Prod.fst).mem_iff, Std.ExtTreeMap.map_fst_toList_eq_keys,
    Std.ExtTreeMap.mem_keys]

/-- The cells are listed in row-major order, each of them once. -/
theorem pairwise_before_cells (s : Sheet) (order : Grid.Enumeration) :
    (s.cells order).Pairwise fun a b => a.1.Before b.1 := by
  have hsorted : (s.cells order).Pairwise fun a b => (compare a.1 b.1).isLE = true := by
    refine List.pairwise_mergeSort (fun a b c hab hbc => ?_) (fun a b => ?_) _
    · exact Std.TransCmp.isLE_trans hab hbc
    · rw [Std.OrientedOrd.eq_swap (a := b.1)]
      cases compare a.1 b.1 <;> rfl
  have hdistinct : (s.cells order).Pairwise fun a b => ¬ compare a.1 b.1 = .eq := by
    refine ((cells_perm s order).pairwise_iff fun {a b} hab hba => hab ?_).2
      Std.ExtTreeMap.distinct_keys_toList
    rw [Std.OrientedOrd.eq_swap, hba]
    rfl
  refine (hsorted.and hdistinct).imp fun {a b} ⟨hle, hne⟩ => ?_
  rw [← CellRef.compare_eq_lt_iff]
  cases hab : compare a.1 b.1 with
  | lt => rfl
  | eq => exact absurd hab hne
  | gt => simp [hab] at hle

/-- There is one list of given cells in row-major order. -/
theorem eq_of_perm_of_pairwise_before {l l' : List (CellRef × Cell)} (hperm : l.Perm l')
    (hl : l.Pairwise fun a b => a.1.Before b.1) (hl' : l'.Pairwise fun a b => a.1.Before b.1) :
    l = l' :=
  hperm.eq_of_pairwise (fun _ _ _ _ hab hba => absurd hba hab.asymm) hl hl'

/-- The order in which the cells are found leaves no trace. -/
theorem cells_eq (s : Sheet) (order order' : Grid.Enumeration) :
    s.cells order = s.cells order' := by
  have hperm : (s.cells order).Perm (s.cells order') :=
    (cells_perm s order).trans (cells_perm s order').symm
  exact eq_of_perm_of_pairwise_before hperm (pairwise_before_cells s order)
    (pairwise_before_cells s order')

/-- They are listed as a map that is ordered by references holds them. -/
theorem cells_eq_toList (s : Sheet) (order : Grid.Enumeration) :
    s.cells order = s.grid.toList := by
  have hordered : s.grid.toList.Pairwise fun a b => a.1.Before b.1 :=
    Std.ExtTreeMap.ordered_keys_toList.imp fun {a b} hab => (CellRef.compare_eq_lt_iff _ _).1 hab
  exact eq_of_perm_of_pairwise_before (cells_perm s order) (pairwise_before_cells s order) hordered

end Sheet

end FormulaSheet
