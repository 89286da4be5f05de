/-!
# Arithmetic operators

The four operators of formulas. Multiplication and division bind tighter than addition and
subtraction. An operator computes as binary64 arithmetic does: division by zero gives an infinity
or no number, never an error.

## Main definitions

* `Operator`: the four operators.
* `Operator.symbol`, `Operator.ofSymbol?`: their written forms.
* `Operator.apply`: what they compute.
-/

namespace FormulaSheet

/-- A binary arithmetic operator. -/
inductive Operator where
  | add
  | sub
  | mul
  | div
deriving DecidableEq, Repr

namespace Operator

/-- The written form of an operator. -/
def symbol : Operator → String
  | add => "+"
  | sub => "-"
  | mul => "*"
  | div => "/"

/-- The operator with the given written form. -/
def ofSymbol? (s : String) : Option Operator :=
  if s = "+" then some add
  else if s = "-" then some sub
  else if s = "*" then some mul
  else if s = "/" then some div
  else none

/-- Multiplication and division, which bind tighter. -/
def isMultiplicative : Operator → Bool
  | mul | div => true
  | add | sub => false

/-- Addition and subtraction. -/
def isAdditive (op : Operator) : Bool :=
  !op.isMultiplicative

/-- The result of an operator on binary64 numbers. -/
def apply : Operator → Float → Float → Float
  | add, x, y => x + y
  | sub, x, y => x - y
  | mul, x, y => x * y
  | div, x, y => x / y

@[simp] theorem ofSymbol?_symbol (op : Operator) : ofSymbol? op.symbol = some op := by
  cases op <;> decide

end Operator

end FormulaSheet
