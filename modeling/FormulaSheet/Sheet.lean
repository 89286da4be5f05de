import FormulaSheet.Evaluation

/-!
# Sheets

A sheet is a grid of a fixed size with a version. The version is what remembered values are stamped
with: with a new version all of them are stale. Reading a cell or evaluating a formula gives a value
and the sheet with the values that were remembered on the way.

## Main definitions

* `Sheet`: a grid with its size and version.
* `Sheet.resolve`, `Sheet.execute`: the value of a cell and of an expression, on a trail.
* `Sheet.value`, `Sheet.display`: the value of a cell and the text that shows it.
* `Sheet.cells`: the stored cells in row-major order.
-/

namespace FormulaSheet

/-- A grid with its size and version. -/
structure Sheet where
  size : Size
  version : Nat
  grid : Grid

namespace Sheet

/-- The size of a sheet when nothing else is asked for. -/
def defaultSize : Size := ⟨26, 100⟩

/-- A sheet without cells. -/
def blank (size : Size) : Sheet :=
  ⟨size, 1, ∅⟩

/-- Runs an evaluation on the grid of a sheet. -/
def evaluate (s : Sheet) (t : Trail) (x : Nat → Evaluation.Eval Value) : Value × Sheet × Trail :=
  let (v, st) := Evaluation.run x ⟨s.grid, t⟩
  (v, { s with grid := st.grid }, st.trail)

/-- The value of a cell when the cells of `t` are being computed. -/
def resolve (s : Sheet) (t : Trail) (c : CellRef) : Value × Sheet × Trail :=
  s.evaluate t fun n => Evaluation.resolve s.size s.version n c

/-- The value of an expression when the cells of `t` are being computed. -/
def execute (s : Sheet) (t : Trail) (e : Expr) : Value × Sheet × Trail :=
  s.evaluate t fun n => e.evalM (Evaluation.resolve s.size s.version n)

/-- The value of a cell. -/
def value (s : Sheet) (c : CellRef) : Value × Sheet :=
  let (v, s, _) := s.resolve .empty c
  (v, s)

/-- The value of an expression. -/
def valueOf (s : Sheet) (e : Expr) : Value × Sheet :=
  let (v, s, _) := s.execute .empty e
  (v, s)

/-- The text that shows a cell. -/
def display (s : Sheet) (c : CellRef) : String × Sheet :=
  match s.grid[c]? with
  | none | some .empty => ("", s)
  | some (.text t) => (t, s)
  | some (.number x) => (Number.display x, s)
  | some (.formula _) =>
    let (v, s) := s.value c
    (v.display, s)

/-- The stored cells in row-major order, sorted from the order in which they are found. -/
def cells (s : Sheet) (order : Grid.Enumeration) : List (CellRef × Cell) :=
  (order.cells s.grid).mergeSort fun a b => (compare a.1 b.1).isLE

end Sheet

end FormulaSheet
