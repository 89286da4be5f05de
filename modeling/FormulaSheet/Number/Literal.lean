import FormulaSheet.Number.Decimal

/-!
# Number literals

A literal is an optional sign followed by `inf`, `infinity` or `nan` in any case, or by decimal
digits with an optional point among or beside them and an optional exponent: `7`, `-.5`, `2.`,
`1e-3`. At least one digit stands before the exponent, and all digits are ASCII. The number read is
the one nearest to the decimal value.

## Main definitions

* `Literal.decimal?`: the value of an unsigned decimal literal.
* `Literal.read?`: the number that a list of characters denotes, if it is a literal.
-/

namespace FormulaSheet.Literal

/-- The natural number written as at least one digit. -/
def natural? (ds : List Char) : Option Nat :=
  if ds ≠ [] ∧ ds.all Char.isDigit then some (Nat.ofDigitChars 10 ds 0) else none

/-- The integer written as an optional sign and at least one digit. -/
def exponent? (cs : List Char) : Option Int :=
  match cs with
  | '+' :: ds => (natural? ds).map fun n => n
  | '-' :: ds => (natural? ds).map fun n => -n
  | ds => (natural? ds).map fun n => n

/-- The digits after a decimal point, and what follows them. -/
def fraction (cs : List Char) : List Char × List Char :=
  match cs with
  | '.' :: r => (r.takeWhile Char.isDigit, r.dropWhile Char.isDigit)
  | r => ([], r)

/-- The value of digits, point and exponent. -/
def decimal? (cs : List Char) : Option Decimal :=
  let whole := cs.takeWhile Char.isDigit
  let (frac, rest) := fraction (cs.dropWhile Char.isDigit)
  let significand := Nat.ofDigitChars 10 (whole ++ frac) 0
  if whole ++ frac = [] then none
  else
    match rest with
    | [] => some ⟨significand, -(frac.length : Int)⟩
    | c :: r =>
      if c = 'e' ∨ c = 'E' then (exponent? r).map fun e => ⟨significand, e - frac.length⟩
      else none

/-- The number of a literal without its sign. -/
def unsigned? (negative : Bool) (cs : List Char) : Option Float :=
  let lower := cs.map Char.toLower
  if lower = "inf".toList ∨ lower = "infinity".toList then some (Binary64.infinity negative)
  else if lower = "nan".toList then some Binary64.notANumber
  else (decimal? cs).map (Decimal.toFloat · negative)

/-- The number that the characters denote, if they form a literal. -/
def read? (cs : List Char) : Option Float :=
  match cs with
  | '+' :: r => unsigned? false r
  | '-' :: r => unsigned? true r
  | r => unsigned? false r

end FormulaSheet.Literal
