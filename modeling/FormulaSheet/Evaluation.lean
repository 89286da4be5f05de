import FormulaSheet.Builtin
import FormulaSheet.Grid
import FormulaSheet.Trail

/-!
# Evaluation

An expression is evaluated by recursion on its nodes, given the values of the cells it refers to.
The value of a cell is its number or the value of its formula. A formula's value is computed at
most once per version of the sheet: it is remembered in the grid, whether it is a number or an
error. A formula that leads back to a cell being computed gives the cycle error there.

Looking up cells changes the grid and the trail, so evaluation runs in a state. Each entry into a
formula cell spends one unit of fuel. A cell is entered only when it is not on the trail, so as many
units suffice as there are formula cells off the trail.

## Main definitions

* `Expr.evalM`: the value of an expression, for any way to look up cells.
* `Evaluation.resolve`: the value of a cell.
* `Evaluation.run`: evaluation with enough fuel.
-/

namespace FormulaSheet

/-! ### Expressions -/

/-- The value of an operator: the error of the left operand comes before that of the right one. -/
def Operator.applyValues (op : Operator) : Value → Value → Value
  | .number x, .number y => .number (op.apply x y)
  | .error e, _ => .error e
  | .number _, .error e => .error e

namespace Expr

mutual

/-- The value of an expression, where `resolve` looks up cells. Both operands of an operator are
evaluated, even if the left one is an error. The arguments of a call are evaluated only if the
function exists, and only up to the first error. -/
def evalM {m : Type → Type} [Monad m] (resolve : CellRef → m Value) : Expr → m Value
  | constant x _ => pure (.number x)
  | ref c _ => resolve c
  | binary op l r _ => do
    let x ← l.evalM resolve
    let y ← r.evalM resolve
    return op.applyValues x y
  | call name args _ =>
    match Builtin.find? name with
    | none => pure (.error .name)
    | some f => do
      match ← evalArgsM resolve args with
      | .ok xs => return f.call xs
      | .error err => return .error err

/-- The numbers of the arguments of a call, or the first error among them. -/
def evalArgsM {m : Type → Type} [Monad m] (resolve : CellRef → m Value) :
    List Expr → m (Except EvalError (List Float))
  | [] => pure (.ok [])
  | e :: es => do
    match ← e.evalM resolve with
    | .error err => return .error err
    | .number x =>
      let xs ← evalArgsM resolve es
      return xs.map (x :: ·)

end

/-- Expressions with the same node are evaluated in the same way: the text has no part in it. -/
theorem evalM_eq_of_sameNode {m : Type → Type} [Monad m] (resolve : CellRef → m Value) {a b : Expr}
    (h : a.sameNode b = true) : a.evalM resolve = b.evalM resolve := by
  obtain ⟨t, rfl⟩ := (sameNode_iff a b).1 h
  cases a <;> simp only [withText, evalM]

end Expr

/-! ### Cells -/

/-- How many columns and rows a sheet has. -/
structure Size where
  cols : UInt64
  rows : UInt64
deriving DecidableEq, Repr

/-- Whether a cell lies inside a sheet of the given size. -/
def Size.contains (s : Size) (c : CellRef) : Bool :=
  c.col < s.cols && c.row < s.rows

namespace Evaluation

/-- What evaluation changes: the remembered values in the grid, and the trail. -/
structure State where
  grid : Grid
  trail : Trail

/-- Evaluation in a state; there is no result when the fuel is spent. -/
abbrev Eval := StateT State Option

/-- What is known of a cell before anything is computed. -/
inductive Lookup where
  /-- The value is known. -/
  | known (v : Value)
  /-- The value has to be computed from a formula. -/
  | stale (e : Expr)
deriving DecidableEq

/-- Looks up a cell. -/
def lookup (size : Size) (version : Nat) (grid : Grid) (c : CellRef) : Lookup :=
  if size.contains c then
    match grid[c]? with
    | some (.number x) => .known (.number x)
    | some (.formula f) =>
      match f.cached? version with
      | some v => .known v
      | none => .stale f.expr
    | some .empty | some (.text _) | none => .known (.error .cellType)
  else .known (.error .position)

/-- The value of a cell, where `compute` evaluates the formula of a cell that has to be entered. -/
def resolveWith (size : Size) (version : Nat) (compute : Expr → Eval Value) (c : CellRef) :
    Eval Value := do
  let s ← get
  match lookup size version s.grid c with
  | .known v => return v
  | .stale e =>
    match s.trail.enter? c with
    | none => return .error .cycle
    | some trail =>
      set { s with trail }
      let v ← compute e
      modify fun s => ⟨s.grid.remember c v version, s.trail.leave c⟩
      return v

/-- The value of a cell, with fuel for `n` nested formula cells. -/
def resolve (size : Size) (version : Nat) : (n : Nat) → CellRef → Eval Value
  | 0 => resolveWith size version fun _ => failure
  | n + 1 => resolveWith size version fun e => e.evalM (resolve size version n)

/-- The fuel that is enough for any evaluation from a state. -/
def fuel (s : State) : Nat :=
  (s.grid.formulaCells.filter fun c => !s.trail.contains c).length + 1

/-- Runs an evaluation with enough fuel. An evaluation that spends it all in spite of that would be
one that goes round in a cycle. -/
def run (x : Nat → Eval Value) (s : State) : Value × State :=
  match (x (fuel s)).run s with
  | some r => r
  | none => (.error .cycle, s)

end Evaluation

end FormulaSheet
