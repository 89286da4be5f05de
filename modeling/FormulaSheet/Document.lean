import FormulaSheet.Sheet

/-!
# Documents

A document is a sheet with a history. Every edit changes one cell and is recorded with the cell
before and after it. Undoing an edit moves its record to the future and redoing it moves it back; a
new edit forgets the future. The past holds a limited number of records, and the oldest one goes
when there are more.

An edit that fails changes nothing. Operations act on a document as a state, which an error leaves
as it was at that point.

## Main definitions

* `Document`: a sheet with its past and future.
* `Document.setInput`, `Document.clear`: edits.
* `Document.undo`, `Document.redo`: steps through the history.
* `Document.endCycle`: a new version of the sheet.
* `Document.value`, `Document.display`, `Document.evaluate`: reads.
-/

namespace FormulaSheet

/-- A recorded edit: a cell, what it held before and what it held after. -/
structure Change where
  cell : CellRef
  old : Option Cell
  new : Option Cell
deriving DecidableEq

/-- A sheet with its history, the latest change first on both sides. -/
structure Document where
  sheet : Sheet
  past : List Change
  future : List Change

/-- Why an operation on a document fails. -/
inductive EditError where
  | invalidFormula (e : ParseError)
  | outOfBounds (cell : CellRef) (size : Size)
  | nothingToUndo
  | nothingToRedo
deriving DecidableEq, Repr

/-- The message of an error. -/
def EditError.message : EditError → String
  | invalidFormula e => e.message
  | outOfBounds cell size =>
    "Cell " ++ cell.text ++ " is outside the " ++ size.cols.toNat.repr ++ "x" ++
      size.rows.toNat.repr ++ " sheet"
  | nothingToUndo => "Nothing to undo"
  | nothingToRedo => "Nothing to redo"

namespace Document

/-- An operation on a document that may fail. -/
abbrev Edit := ExceptT EditError (StateM Document)

/-- A document without cells and history. -/
def blank (size : Size) : Document :=
  ⟨Sheet.blank size, [], []⟩

/-- How many changes the past holds. -/
def pastLimit : Nat := 100

/-! ### Edits -/

/-- The document with another grid. -/
def withGrid (d : Document) (g : Grid) : Document :=
  { d with sheet := { d.sheet with grid := g } }

/-- The document with the change of `c` to `new` recorded. -/
def record (d : Document) (c : CellRef) (new : Option Cell) : Document :=
  { d with past := (⟨c, d.sheet.grid[c]?, new⟩ :: d.past).take pastLimit, future := [] }

/-- Sets a cell from an input. -/
def setInput (c : CellRef) (input : String) : Edit Unit := do
  let d ← get
  unless d.sheet.size.contains c do
    throw (.outOfBounds c d.sheet.size)
  match Cell.ofInput input with
  | .error e => throw (.invalidFormula e)
  | .ok cell =>
    modify (·.record c (if cell.isEmpty then none else some cell))
    modify fun d => d.withGrid (d.sheet.grid.put c cell)

/-- Clears a cell, if it is stored. -/
def clear (c : CellRef) : StateM Document Unit :=
  modify fun d =>
    if c ∈ d.sheet.grid then (d.record c none).withGrid (d.sheet.grid.erase c) else d

/-! ### History -/

/-- The document with a cell put back as the history holds it, with nothing remembered. -/
def restore (d : Document) (c : CellRef) (state : Option Cell) : Document :=
  match state with
  | some cell => d.withGrid (d.sheet.grid.put c cell.forget)
  | none => d.withGrid (d.sheet.grid.erase c)

/-- Undoes the latest change and gives the cell it touches. The record for redoing holds the cell as
it was just before. -/
def undo : Edit CellRef := do
  let d ← get
  match d.past with
  | [] => throw .nothingToUndo
  | change :: past =>
    let undone : Change := ⟨change.cell, change.old, d.sheet.grid[change.cell]?⟩
    set ({ d with past, future := undone :: d.future }.restore change.cell change.old)
    return change.cell

/-- Redoes the change undone last and gives the cell it touches. The record for undoing holds the
cell as it was just before. -/
def redo : Edit CellRef := do
  let d ← get
  match d.future with
  | [] => throw .nothingToRedo
  | change :: future =>
    let redone : Change := ⟨change.cell, d.sheet.grid[change.cell]?, change.new⟩
    set ({ d with past := redone :: d.past, future }.restore change.cell change.new)
    return change.cell

/-! ### Versions and reads -/

/-- Starts a new version and gives its number. -/
def endCycle : StateM Document Nat := do
  modify fun d => { d with sheet := { d.sheet with version := d.sheet.version + 1 } }
  return (← get).sheet.version

/-- Reads the sheet and keeps what it remembers on the way. -/
def reading (read : Sheet → α × Sheet) : StateM Document α :=
  modifyGet fun d =>
    let (a, sheet) := read d.sheet
    (a, { d with sheet })

/-- The value of a cell. -/
def value (c : CellRef) : StateM Document Value :=
  reading (·.value c)

/-- The text that shows a cell. -/
def display (c : CellRef) : StateM Document String :=
  reading (·.display c)

/-- The formula in a text: blank characters around it and one equals sign in front do not count. -/
def formulaText (s : String) : String :=
  match Text.trimChars s.toList with
  | '=' :: r => String.ofList r
  | cs => String.ofList cs

/-- The value of a formula that is not stored. -/
def evaluate (formula : String) : Edit Value :=
  match Expr.parse (formulaText formula) with
  | .error e => throw (.invalidFormula e)
  | .ok e => liftM (reading (·.valueOf e))

end Document

end FormulaSheet
