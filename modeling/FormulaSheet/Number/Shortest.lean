import FormulaSheet.Number.Decimal

/-!
# The shortest decimal of a number

Many decimal values are nearest to the same number. The shortest one has the fewest significant
digits among those that read back, and of two equally short ones it is the nearer; halfway it is
the larger. Only the two neighbours of the number among the values with a given count of digits
can be the answer for that count, so they alone are tried.

## Main definitions

* `Shortest.neighbours`: the two values around a fraction on a decimal grid, the nearer one first.
* `Shortest.decimal`: the shortest decimal value that reads back.
-/

namespace FormulaSheet.Shortest

/-- The integer `k` with `10 ^ k ≤ num / den < 10 ^ (k + 1)`, for positive `num` and `den`. -/
def floorLog10 (num den : Nat) : Int :=
  if den ≤ num then ((Nat.toDigits 10 (num / den)).length : Int) - 1
  else -((Nat.toDigits 10 ((den - 1) / num)).length : Int)

/-- The multiples of `10 ^ exponent` around `num / den`, the nearer one first. -/
def neighbours (num den : Nat) (exponent : Int) : List Decimal :=
  let a := num * power 10 (-exponent)
  let b := den * power 10 exponent
  if 2 * (a % b) < b then [⟨a / b, exponent⟩, ⟨a / b + 1, exponent⟩]
  else [⟨a / b + 1, exponent⟩, ⟨a / b, exponent⟩]

/-- Seventeen significant digits tell any two numbers apart. -/
def maxDigits : Nat := 17

/-- The decimal value `significand * 2 ^ exponent`, to its last digit. -/
def exact (significand : Nat) (exponent : Int) : Decimal :=
  if 0 ≤ exponent then ⟨significand * power 2 exponent, 0⟩
  else ⟨significand * power 5 (-exponent), exponent⟩

/-- The shortest decimal value for the magnitude `significand * 2 ^ exponent` that reads back as the
finite number `x`; all digits where no short value does. -/
def decimal (x : Float) (negative : Bool) (significand : Nat) (exponent : Int) : Decimal :=
  let num := Binary64.numerator significand exponent
  let den := Binary64.denominator exponent
  let top := floorLog10 num den
  let found := (List.range maxDigits).findSome? fun (i : Nat) =>
    (neighbours num den (top - i)).find? fun d => d.toFloat negative = x
  found.getD (exact significand exponent)

end FormulaSheet.Shortest
