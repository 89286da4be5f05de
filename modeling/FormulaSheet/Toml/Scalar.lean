import FormulaSheet.Number.Literal
import FormulaSheet.Toml.Table

/-!
# Numbers, booleans and dates of TOML

Values other than strings, arrays and tables are written without spaces, except that a space may
stand between a date and a time. Integers are decimal, hexadecimal, octal or binary and fit into
sixty-four bits. Underscores may stand between digits. Dates are those of the Gregorian calendar.

## Main definitions

* `Toml.scalar?`: the value that such a word denotes.
-/

namespace FormulaSheet.Toml

/-! ### Integers and floats -/

/-- The digits of a number in which an underscore may stand between two digits. -/
def digits? (isDigit : Char → Bool) (cs : List Char) : Option (List Char) :=
  match cs with
  | [] => none
  | [c] => if isDigit c then some [c] else none
  | c :: '_' :: rest => if isDigit c then (digits? isDigit rest).map (c :: ·) else none
  | c :: rest => if isDigit c then (digits? isDigit rest).map (c :: ·) else none

/-- The value of a digit up to `f`. -/
def digitValue (c : Char) : Nat :=
  if c.isDigit then c.toNat - '0'.toNat else c.toLower.toNat - 'a'.toNat + 10

/-- Whether a character is a digit in the given base. -/
def isDigitIn (base : Nat) (c : Char) : Bool :=
  (c.isDigit || ('a' ≤ c.toLower && c.toLower ≤ 'f')) && digitValue c < base

/-- The natural number that digits denote in the given base. -/
def naturalIn? (base : Nat) (cs : List Char) : Option Nat :=
  (digits? (isDigitIn base) cs).map (·.foldl (fun n c => base * n + digitValue c) 0)

/-- Decimal digits without a superfluous zero in front, free of underscores. -/
def wholeDigits? (cs : List Char) : Option (List Char) :=
  match cs with
  | '0' :: _ :: _ => none
  | cs => digits? Char.isDigit cs

/-- A sign, if there is one, and the rest. -/
def splitSign : List Char → List Char × List Char
  | '+' :: r => (['+'], r)
  | '-' :: r => (['-'], r)
  | r => ([], r)

/-- The integer, if it fits into sixty-four bits with a sign. -/
def fitInteger (n : Int) : Option Value :=
  if -0x8000000000000000 ≤ n ∧ n < 0x8000000000000000 then some (.integer n) else none

/-- The integer that a word denotes. -/
def integer? (cs : List Char) : Option Value :=
  match cs with
  | '0' :: 'x' :: r => naturalIn? 16 r >>= fun n => fitInteger n
  | '0' :: 'o' :: r => naturalIn? 8 r >>= fun n => fitInteger n
  | '0' :: 'b' :: r => naturalIn? 2 r >>= fun n => fitInteger n
  | cs =>
    let (sign, r) := splitSign cs
    wholeDigits? r >>= fun ds =>
      let n := Nat.ofDigitChars 10 ds 0
      fitInteger (if sign = ['-'] then -n else n)

/-- The exponent of a float: a sign, if there is one, and digits. -/
def exponentDigits? (cs : List Char) : Option (List Char) :=
  let (sign, r) := splitSign cs
  (digits? Char.isDigit r).map (sign ++ ·)

/-- The part of a float after its whole digits, free of underscores. -/
def floatTail? (cs : List Char) : Option (List Char) :=
  let isMark (c : Char) : Bool := c = 'e' || c = 'E'
  let exponent (r : List Char) : Option (List Char) :=
    match r with
    | [] => some []
    | _ :: r => (exponentDigits? r).map ('e' :: ·)
  match cs with
  | '.' :: r => do
    let frac ← digits? Char.isDigit (r.takeWhile (!isMark ·))
    let e ← exponent (r.dropWhile (!isMark ·))
    return '.' :: frac ++ e
  | c :: r => if isMark c then exponent (c :: r) else none
  | [] => none

/-- The float that a word denotes. A literal above all finite numbers is refused. -/
def float? (cs : List Char) : Option Value :=
  let (sign, r) := splitSign cs
  let isInner (c : Char) : Bool := c.isDigit || c = '_'
  if r = "inf".toList ∨ r = "nan".toList then (Literal.read? cs).map .float
  else do
    let whole ← wholeDigits? (r.takeWhile isInner)
    let tail ← floatTail? (r.dropWhile isInner)
    let x ← Literal.read? (sign ++ whole ++ tail)
    if x = Binary64.infinity false then none else some (.float x)

/-! ### Dates and times -/

/-- The number that two digits denote, and the rest. -/
def twoDigits? (cs : List Char) : Option (Nat × List Char) :=
  match cs with
  | a :: b :: r =>
    if a.isDigit && b.isDigit then some (Nat.ofDigitChars 10 [a, b] 0, r) else none
  | _ => none

/-- The rest after a given character. -/
def afterChar? (c : Char) (cs : List Char) : Option (List Char) :=
  match cs with
  | d :: r => if d = c then some r else none
  | [] => none

/-- Whether a year has a twenty-ninth of February. -/
def isLeapYear (year : Nat) : Bool :=
  year % 4 = 0 && (year % 100 ≠ 0 || year % 400 = 0)

/-- The days of a month. -/
def daysIn (year month : Nat) : Nat :=
  if month = 2 then (if isLeapYear year then 29 else 28)
  else if month ∈ [4, 6, 9, 11] then 30 else 31

/-- Drops a date `yyyy-mm-dd`. -/
def afterDate? (cs : List Char) : Option (List Char) := do
  let (century, r) ← twoDigits? cs
  let (year, r) ← twoDigits? r
  let (month, r) ← twoDigits? (← afterChar? '-' r)
  let (day, r) ← twoDigits? (← afterChar? '-' r)
  if 1 ≤ month ∧ month ≤ 12 ∧ 1 ≤ day ∧ day ≤ daysIn (100 * century + year) month then some r
  else none

/-- Drops a time of day `hh:mm:ss` with any fraction of a second. -/
def afterTime? (cs : List Char) : Option (List Char) := do
  let (hour, r) ← twoDigits? cs
  let (minute, r) ← twoDigits? (← afterChar? ':' r)
  let (second, r) ← twoDigits? (← afterChar? ':' r)
  if hour ≤ 23 ∧ minute ≤ 59 ∧ second ≤ 60 then
    match r with
    | '.' :: f => if f.takeWhile Char.isDigit = [] then none else some (f.dropWhile Char.isDigit)
    | _ => some r
  else none

/-- Whether a text is an offset from universal time. -/
def isOffset (cs : List Char) : Bool :=
  match cs with
  | ['Z'] | ['z'] => true
  | s :: r =>
    (s = '+' || s = '-') &&
      match (do
        let (hour, r) ← twoDigits? r
        let (minute, r) ← twoDigits? (← afterChar? ':' r)
        return (hour, minute, r) : Option (Nat × Nat × List Char)) with
      | some (hour, minute, r) => hour ≤ 23 && minute ≤ 59 && r.isEmpty
      | none => false
  | [] => false

/-- Whether a text is a time with any offset. -/
def isOffsetTime (cs : List Char) : Bool :=
  match afterTime? cs with
  | some r => r.isEmpty || isOffset r
  | none => false

/-- Whether a text is a date. -/
def isDate (cs : List Char) : Bool :=
  afterDate? cs = some []

/-- Whether a text is a date, a time of day or a date with a time. -/
def isDatetime (cs : List Char) : Bool :=
  match afterDate? cs with
  | some [] => true
  | some (d :: r) => (d = 'T' || d = 't' || d = ' ') && isOffsetTime r
  | none => afterTime? cs = some []

/-! ### Words -/

/-- The value that a word denotes. -/
def scalar? (cs : List Char) : Option Value :=
  if cs = "true".toList then some (.boolean true)
  else if cs = "false".toList then some (.boolean false)
  else if isDatetime cs then some (.datetime (String.ofList cs))
  else (float? cs).or (integer? cs)

/-- The characters of a word. -/
def isScalarChar (c : Char) : Bool :=
  c.isAlphanum || c ∈ ['+', '-', '_', '.', ':']

end FormulaSheet.Toml
