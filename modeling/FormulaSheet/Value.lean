import FormulaSheet.Number.Printing

/-!
# Values

Evaluating a formula gives a number or one of five errors. Errors are values: they pass through
operators and calls and are shown in place of a number.

## Main definitions

* `EvalError`: the errors, with their tokens.
* `Value`: a number or an error, with the text that shows it.
-/

namespace FormulaSheet

/-- An error in place of a number. -/
inductive EvalError where
  /-- A referenced cell holds no number. -/
  | cellType
  /-- There is no function of that name. -/
  | name
  /-- A function takes another number of arguments. -/
  | argument
  /-- A reference leads outside the sheet. -/
  | position
  /-- A cell depends on itself. -/
  | cycle
deriving DecidableEq, Repr

/-- The token that shows an error. -/
def EvalError.token : EvalError → String
  | cellType => "!#TYPE"
  | name => "!#NAME"
  | argument => "!#ARG"
  | position => "!#POS"
  | cycle => "!#CYCLE"

/-- The result of evaluating a formula. -/
inductive Value where
  | number (x : Float)
  | error (e : EvalError)
deriving DecidableEq

/-- The text that shows a value. -/
def Value.display : Value → String
  | number x => Number.display x
  | error e => e.token

end FormulaSheet
