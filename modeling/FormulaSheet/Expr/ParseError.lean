import FormulaSheet.Operator

/-!
# Faults of a formula

The ways in which a list of tokens can fail to be an expression, and the sentence that tells each.

## Main definitions

* `ParseError`: the faults.
* `ParseError.takesToken`: whether the token at fault has been taken.
* `ParseError.reason`, `ParseError.message`: what the user is told.
-/

namespace FormulaSheet

/-- What had to stand where something else was found. -/
inductive Wanted where
  | column
  | divider
  | row
  | openParenAfter (name : String)
  | closeParen
deriving DecidableEq, Repr

/-- A fault of a formula. -/
inductive ParseError where
  /-- Nothing stands where an expression has to. -/
  | emptyExpression
  /-- No operand stands before an operator. -/
  | missingLeft (op : Operator)
  /-- No operand stands after an operator. -/
  | missingRight (op : Operator)
  /-- An operator is left over when all operators have taken their operands. -/
  | danglingOperator (op : Operator)
  /-- Two operands have no operator between them; the text is that of the second one. -/
  | missingOperator (before : String)
  /-- A token that has to follow is missing; `found` is the text of the token in its place, if the
  formula does not end there. -/
  | expected (what : Wanted) (found : Option String)
  /-- The formula ends among the arguments of a call. -/
  | unclosedCall (name : String)
  /-- A comma or closing parenthesis that belongs to nothing. -/
  | unexpected (text : String)
  /-- A token of kind operator that is none. -/
  | unknownOperator (text : String)
  /-- A token of kind number that is none. -/
  | notANumber (text : String)
  /-- A number that names no column or row. -/
  | notACoordinate (text : String)
deriving DecidableEq, Repr

/-- The words for what was wanted. -/
def Wanted.phrase : Wanted → String
  | column => "a column number"
  | divider => "`:` between column and row"
  | row => "a row number"
  | openParenAfter name => "`(` after `" ++ name ++ "`"
  | closeParen => "`)`"

namespace ParseError

/-- The fault lies in the token that was taken last. The other faults are found in front of a token
or of the end of the formula, and that token is left. -/
def takesToken : ParseError → Bool
  | unexpected _ | unknownOperator _ | notANumber _ | notACoordinate _ => true
  | emptyExpression | missingLeft _ | missingRight _ | danglingOperator _ | missingOperator _
  | expected .. | unclosedCall _ => false

/-- The sentence that tells a fault. -/
def reason : ParseError → String
  | emptyExpression => "empty expression"
  | missingLeft op => "operator `" ++ op.symbol ++ "` is missing its left operand"
  | missingRight op => "operator `" ++ op.symbol ++ "` is missing its right operand"
  | danglingOperator op => "operator `" ++ op.symbol ++ "` is missing an operand"
  | missingOperator before => "expected an operator before `" ++ before ++ "`"
  | expected what (some found) => "expected " ++ what.phrase ++ ", found `" ++ found ++ "`"
  | expected what none => "expected " ++ what.phrase ++ ", found end of formula"
  | unclosedCall name => "missing `)` after arguments to `" ++ name ++ "`"
  | unexpected text => "unexpected `" ++ text ++ "`"
  | unknownOperator text => "unknown operator `" ++ text ++ "`"
  | notANumber text => "`" ++ text ++ "` is not a number"
  | notACoordinate text => "`" ++ text ++ "` is not a valid cell coordinate"

/-- The message of a fault. -/
def message (e : ParseError) : String :=
  "Invalid formula: " ++ e.reason

end ParseError

end FormulaSheet
