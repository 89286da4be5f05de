import FormulaSheet.Proofs.Grammar.CellNames

/-!
# The written form of a cell

The texts that name a cell are, but for blank characters around them, two runs of decimal digits
with a colon in front of each: first the column, then the row. Leading zeros do not matter, and a
number that needs more than sixty-four bits names no cell. The written form of a cell is one of the
texts that name it, so different cells are written differently.

## Main results

* `CellRef.exists_cellName_of_ofChars?`: only such texts name a cell.
* `CellRef.ofText?_text`: the written form of a cell names it.
* `CellRef.ofText?_names`: the texts that name a cell.
-/

namespace FormulaSheet

theorem Numeral.index?_eq_some_iff_lt {a : Numeral} {i : UInt64} :
    a.index? = some i ↔ a.value < 2 ^ 64 ∧ i.toNat = a.value := by
  rw [index?_eq_some_iff]
  constructor
  · intro h
    exact ⟨h ▸ i.toNat_lt, h.symm⟩
  · rintro ⟨-, h⟩
    exact h.symm

namespace CellRef

/-- Characters that are read as an index are digits. -/
theorem exists_numeral_of_coordinate? {ds : List Char} {i : UInt64} (h : coordinate? ds = some i) :
    ∃ a : Numeral, a.chars = ds := by
  obtain ⟨⟨hne, hdigits, -⟩, -⟩ := Option.ite_none_right_eq_some.1 h
  exact ⟨⟨ds, hne, List.all_eq_true.1 hdigits⟩, rfl⟩

/-- Only a colon, digits, a colon, and digits name a cell. -/
theorem exists_cellName_of_ofChars? {cs : List Char} {c : CellRef} (h : ofChars? cs = some c) :
    ∃ col row : Numeral, cs = (cellName col row).toList := by
  rw [ofChars?.eq_def] at h
  split at h
  · next r =>
    split at h
    · next rowDigits hrest =>
      split at h
      · next hcol hrow =>
        obtain ⟨col, hcol⟩ := exists_numeral_of_coordinate? hcol
        obtain ⟨row, hrow⟩ := exists_numeral_of_coordinate? hrow
        refine ⟨col, row, ?_⟩
        rw [toList_cellName, hcol, hrow, ← hrest, List.takeWhile_append_dropWhile]
      · cases h
    · cases h
  · cases h

/-- Blank characters around a name do not matter. -/
theorem ofText?_trim (s : String) : ofText? (Text.trim s) = ofText? s := by
  rw [ofText?, Text.trim, String.toList_ofList, Text.trimChars_trimChars, ofText?]

/-- A text names a cell when its trimmed form consists of the digits of the column and the row. -/
theorem ofText?_eq_some_iff {s : String} {c : CellRef} :
    ofText? s = some c ↔ ∃ col row : Numeral, Text.trim s = cellName col row ∧
      col.index? = some c.col ∧ row.index? = some c.row := by
  constructor
  · intro h
    obtain ⟨col, row, hname⟩ := exists_cellName_of_ofChars? h
    have htrim : Text.trim s = cellName col row := by
      rw [Text.trim, hname, String.ofList_toList]
    rw [← ofText?_trim, htrim, ofText?_cellName_eq_some_iff] at h
    exact ⟨col, row, htrim, h⟩
  · rintro ⟨col, row, htrim, h⟩
    rw [← ofText?_trim, htrim, ofText?_cellName_eq_some_iff]
    exact h

/-- The written form of a cell names it. -/
theorem ofText?_text (c : CellRef) : ofText? c.text = some c := by
  rw [text_eq_cellName, ofText?_cellName_eq_some_iff, Numeral.index?_eq_some_iff,
    Numeral.index?_eq_some_iff, Numeral.value_ofNat, Numeral.value_ofNat]
  exact ⟨rfl, rfl⟩

/-- Different cells are written differently. -/
theorem text_injective : Function.Injective text := by
  intro a b h
  apply Option.some.inj
  rw [← ofText?_text a, ← ofText?_text b, h]

/-- **The written form of a cell.** A text names the cell `c` exactly when, without the blank
characters around it, it is `:col:row` with digits for the column and the row of `c`, both below
`2 ^ 64`. The written form of a cell is such a text, and no other cell has the same. -/
theorem ofText?_names (c : CellRef) :
    (∀ s, ofText? s = some c ↔ ∃ col row : Numeral,
      Text.trim s = ":" ++ col.text ++ ":" ++ row.text ∧
        (col.value < 2 ^ 64 ∧ c.col.toNat = col.value) ∧
        row.value < 2 ^ 64 ∧ c.row.toNat = row.value) ∧
      ofText? c.text = some c ∧ ∀ c' : CellRef, c'.text = c.text → c' = c := by
  refine ⟨fun s => ?_, ofText?_text c, fun c' h => text_injective h⟩
  simp only [ofText?_eq_some_iff, Numeral.index?_eq_some_iff_lt, cellName]

end CellRef

end FormulaSheet
