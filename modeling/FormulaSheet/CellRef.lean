import FormulaSheet.Text.Blank

/-!
# Cell references

A cell is named by its column and row, both counted from zero and written `:col:row`. Cells are
ordered row by row.

## Main definitions

* `CellRef`: a column and a row, with its order.
* `CellRef.text`: the written form.
* `CellRef.ofText?`: the cell that a text names.
-/

namespace FormulaSheet

/-- A cell of a sheet, by column and row. -/
structure CellRef where
  col : UInt64
  row : UInt64
deriving DecidableEq, Repr, Inhabited

namespace CellRef

/-! ### Row-major order -/

instance : Ord CellRef where
  compare := compareLex (compareOn row) (compareOn col)

instance : Std.TransOrd CellRef :=
  inferInstanceAs (Std.TransCmp (compareLex (compareOn row) (compareOn col)))

instance : Std.LawfulEqOrd CellRef where
  eq_of_compare {a b} h := by
    obtain ⟨hr, hc⟩ := compareLex_eq_eq.1 h
    have hr : a.row = b.row := Std.LawfulEqOrd.eq_of_compare hr
    have hc : a.col = b.col := Std.LawfulEqOrd.eq_of_compare hc
    cases a; cases b; simp_all

/-! ### Written form -/

/-- The written form `:col:row` of a cell. -/
def text (c : CellRef) : String :=
  ":" ++ c.col.toNat.repr ++ ":" ++ c.row.toNat.repr

instance : ToString CellRef := ⟨text⟩

/-- The coordinate written as a run of decimal digits, if it fits into sixty-four bits. -/
def coordinate? (ds : List Char) : Option UInt64 :=
  let n := Nat.ofDigitChars 10 ds 0
  if ds ≠ [] ∧ ds.all Char.isDigit ∧ n < UInt64.size then some (UInt64.ofNat n) else none

/-- The cell named by characters of the form `:col:row`. -/
def ofChars? (cs : List Char) : Option CellRef :=
  match cs with
  | ':' :: r =>
    match r.dropWhile Char.isDigit with
    | ':' :: rowDigits =>
      match coordinate? (r.takeWhile Char.isDigit), coordinate? rowDigits with
      | some col, some row => some ⟨col, row⟩
      | _, _ => none
    | _ => none
  | _ => none

/-- The cell that a text names; blank characters around the name do not count. -/
def ofText? (s : String) : Option CellRef :=
  ofChars? (Text.trimChars s.toList)

end CellRef

end FormulaSheet
