import FormulaSheet.Number.Binary64

/-!
# Decimal values

A decimal value is a natural number times a power of ten. It is what number literals are read into
and what numbers are printed from.

## Main definitions

* `Decimal`: decimal values.
* `Decimal.toFloat`: the number nearest to a decimal value.
* `Decimal.placesText`: a value in units of `10 ^ (-places)`, written with that many places.
* `Decimal.text`: a decimal value without an exponent and without superfluous zeros.
-/

namespace FormulaSheet

/-- The decimal value `significand * 10 ^ exponent`. -/
structure Decimal where
  significand : Nat
  exponent : Int
deriving DecidableEq, Repr

namespace Decimal

/-! ### Reading -/

/-- Every positive multiple of a larger power of ten is above all finite numbers, and what is below
`10 ^ (-exponentLimit)` is nearest to zero. -/
def exponentLimit : Nat := 400

/-- The number nearest to `± d`. Powers of ten that are certain to lead to an infinity or to zero
are not computed: the significand is below `10 ^ (log2 significand + 1)`. -/
def toFloat (d : Decimal) (negative : Bool) : Float :=
  if d.significand = 0 ∨ d.exponent < -((exponentLimit + d.significand.log2 + 1 : Nat) : Int) then
    Binary64.signed negative 0
  else if exponentLimit < d.exponent then Binary64.infinity negative
  else
    Binary64.nearest negative (d.significand * power 10 d.exponent) (power 10 (-d.exponent))

/-! ### Writing -/

/-- The last `places` decimal digits of `n`, with zeros in front where there are fewer. -/
def fractionDigits (n places : Nat) : List Char :=
  let ds := Nat.toDigits 10 (n % power 10 places)
  if places = 0 then [] else List.replicate (places - ds.length) '0' ++ ds

/-- A whole part and the digits after the point, if there are any. -/
def joinFraction (whole : Nat) (fraction : List Char) : String :=
  if fraction = [] then whole.repr else whole.repr ++ "." ++ String.ofList fraction

/-- The value `n * 10 ^ (-places)` with exactly `places` digits after the point. -/
def placesText (n places : Nat) : String :=
  joinFraction (n / power 10 places) (fractionDigits n places)

/-- The digits without the zeros at the end. -/
def dropZeros (ds : List Char) : List Char :=
  (ds.reverse.dropWhile (· = '0')).reverse

/-- A decimal value without an exponent: digits after the point only as far as they matter. -/
def text (d : Decimal) : String :=
  if 0 ≤ d.exponent then (d.significand * power 10 d.exponent).repr
  else
    let places := (-d.exponent).toNat
    joinFraction (d.significand / power 10 places) (dropZeros (fractionDigits d.significand places))

end Decimal

end FormulaSheet
