import FormulaSheet.Number.Shortest

/-!
# The texts of a number

A number is shown in two ways. Where results are displayed, whole numbers below `10 ^ 15` have no
point and all others have three places, rounded to the nearest, ties to even. Where a cell is
edited, the text is the shortest that reads back as the number.

## Main definitions

* `Number.display`: the text of a result.
* `Number.inputText`: the text for editing.
-/

namespace FormulaSheet.Number

/-- A sign in front of the text of a magnitude. -/
def withSign (negative : Bool) (magnitude : String) : String :=
  if negative then "-" ++ magnitude else magnitude

/-- Whole numbers from here on are shown with places. -/
def wholeLimit : Nat := 1000000000000000

/-- The places of a number that is not shown as a whole one. -/
def displayPlaces : Nat := 3

/-- The text of the magnitude `num / den` as a result. -/
def displayMagnitude (num den : Nat) : String :=
  if num % den = 0 ∧ num / den < wholeLimit then Decimal.placesText (num / den) 0
  else Decimal.placesText (divRoundEven (num * power 10 displayPlaces) den) displayPlaces

/-- The text of a number as a result. A negative number keeps its sign where it rounds to zero. -/
def display (x : Float) : String :=
  match Binary64.ofFloat x with
  | .nan => "NaN"
  | .infinite negative => withSign negative "inf"
  | .finite negative m e =>
    withSign negative (displayMagnitude (Binary64.numerator m e) (Binary64.denominator e))

/-- The text of a number for editing, which reads back as the number. -/
def inputText (x : Float) : String :=
  match Binary64.ofFloat x with
  | .nan => "NaN"
  | .infinite negative => withSign negative "inf"
  | .finite negative m e =>
    withSign negative (if m = 0 then "0" else (Shortest.decimal x negative m e).text)

end FormulaSheet.Number
