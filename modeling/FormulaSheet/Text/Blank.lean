/-!
# Blank characters

Formulas, cell inputs and cell references ignore blank characters at their ends, and formulas
ignore them between words. A character is blank when Unicode gives it the property `White_Space`.

## Main definitions

* `Text.isBlank`: the blank characters.
* `Text.trim`: a text without the blank characters at both of its ends.
-/

namespace FormulaSheet.Text

/-- The ranges of code points with the Unicode property `White_Space`, both ends included. -/
def blankRanges : List (Nat × Nat) :=
  [(0x0009, 0x000D), (0x0020, 0x0020), (0x0085, 0x0085), (0x00A0, 0x00A0), (0x1680, 0x1680),
    (0x2000, 0x200A), (0x2028, 0x2029), (0x202F, 0x202F), (0x205F, 0x205F), (0x3000, 0x3000)]

/-- A character is blank when its code point lies in one of `blankRanges`. -/
def isBlank (c : Char) : Bool :=
  blankRanges.any fun (lo, hi) => lo ≤ c.toNat && c.toNat ≤ hi

/-- The characters without the blank ones in front and at the end. -/
def trimChars (cs : List Char) : List Char :=
  ((cs.dropWhile isBlank).reverse.dropWhile isBlank).reverse

/-- The text without the blank characters at both of its ends. -/
def trim (s : String) : String :=
  String.ofList (trimChars s.toList)

end FormulaSheet.Text
