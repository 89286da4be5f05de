import FormulaSheet.CellRef

/-!
# Trails

Computing a formula may lead to other formulas and in the end back to itself. The trail holds the
formula cells that are being computed; a cell on the trail is not entered again.

## Main definitions

* `Trail`: the cells being computed.
* `Trail.enter?`, `Trail.leave`: one cell more or less.
-/

namespace FormulaSheet

/-- The formula cells being computed, the one entered last in front. -/
structure Trail where
  cells : List CellRef
deriving DecidableEq

namespace Trail

/-- No cell is being computed. -/
def empty : Trail := ⟨[]⟩

/-- Whether a cell is being computed. -/
def contains (t : Trail) (c : CellRef) : Bool :=
  c ∈ t.cells

/-- The trail with one cell more, unless that cell is on it already. -/
def enter? (t : Trail) (c : CellRef) : Option Trail :=
  if t.contains c then none else some ⟨c :: t.cells⟩

/-- The trail without a cell. -/
def leave (t : Trail) (c : CellRef) : Trail :=
  ⟨t.cells.filter (· ≠ c)⟩

/-- The trail of the given cells; repetitions do not count. -/
def ofList (cs : List CellRef) : Trail :=
  cs.foldl (fun t c => (t.enter? c).getD t) empty

end Trail

end FormulaSheet
