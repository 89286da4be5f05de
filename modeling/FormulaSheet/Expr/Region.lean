import FormulaSheet.Expr.Basic
import FormulaSheet.Expr.ParseError

/-!
# Regions

A region is what stands between two brackets, or between commas of a call: operands and operators
in a row. It becomes one expression in two passes. The first joins the operands on both sides of
each multiplicative operator, from left to right, and the second does the same for the additive
ones. So multiplication binds tighter and both levels associate to the left. A single operand has
to remain.

## Main definitions

* `Item`: an operand or an operator.
* `foldOperators`: one pass over a region.
* `Region.close`: the expression of a region.
-/

namespace FormulaSheet

/-- An element of a region. -/
inductive Item where
  | operand (e : Expr)
  | operator (op : Operator)
deriving DecidableEq

/-- Joins the operands around each operator that `selects` accepts, from left to right. The items
of `done` have been passed, the last one first; operators that are not selected stay. -/
def foldOperators (selects : Operator → Bool) :
    (done : List Item) → List Item → Except ParseError (List Item)
  | done, [] => .ok done.reverse
  | done, .operand e :: rest => foldOperators selects (.operand e :: done) rest
  | done, .operator op :: rest =>
    if selects op then
      match done with
      | .operand left :: done =>
        match rest with
        | .operand right :: rest =>
          foldOperators selects (.operand (.ofBinary op left right) :: done) rest
        | _ => .error (.missingRight op)
      | _ => .error (.missingLeft op)
    else foldOperators selects (.operator op :: done) rest

namespace Region

/-- The one operand that a folded region holds. -/
def single (items : List Item) : Except ParseError Expr :=
  match items.reverse with
  | [] => .error .emptyExpression
  | [.operand e] => .ok e
  | .operator op :: _ => .error (.danglingOperator op)
  | .operand e :: _ :: _ => .error (.missingOperator e.text)

/-- The expression of a region. -/
def close (items : List Item) : Except ParseError Expr := do
  let items ← foldOperators Operator.isMultiplicative [] items
  let items ← foldOperators Operator.isAdditive [] items
  single items

end Region

end FormulaSheet
