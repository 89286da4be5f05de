import Std.Data.ExtTreeMap
import FormulaSheet.Cell

/-!
# Grids

A grid holds the cells that are not blank. It is a finite map, so two grids are equal as soon as
they hold the same cells.

## Main definitions

* `Grid`: the cells by their references.
* `Grid.remember`: the grid with a value remembered for one of its formulas.
* `Grid.put`: the grid with another cell in one place; empty cells are not kept.
* `Grid.Enumeration`: an order in which the cells of grids are found.
-/

namespace FormulaSheet

/-- The stored cells. -/
abbrev Grid := Std.ExtTreeMap CellRef Cell

namespace Grid

/-- The grid with a value remembered for the formula at `c`, if there is one. -/
def remember (g : Grid) (c : CellRef) (v : Value) (version : Nat) : Grid :=
  g.modify c (Cell.remember v version)

/-- The grid with nothing remembered for the formula at `c`. -/
def forget (g : Grid) (c : CellRef) : Grid :=
  g.modify c Cell.forget

/-- The grid with another cell at `c`. An empty cell is removed instead of stored. -/
def put (g : Grid) (c : CellRef) (cell : Cell) : Grid :=
  if cell.isEmpty then g.erase c else g.insert c cell

/-- The cells that hold formulas, in row-major order. -/
def formulaCells (g : Grid) : List CellRef :=
  (g.toList.filter fun p => p.2.isFormula).map Prod.fst

/-- A way to go through the cells of a grid. Nothing is known of the order in which it finds
them. -/
structure Enumeration where
  cells : Grid → List (CellRef × Cell)
  perm : ∀ g, (cells g).Perm g.toList

/-- Goes through the cells from the last one in row-major order to the first. -/
def Enumeration.backward : Enumeration :=
  ⟨fun g => g.toList.reverse, fun g => g.toList.reverse_perm⟩

end Grid

end FormulaSheet
