import FormulaSheet.Proofs.Grammar.Canonical
import FormulaSheet.Proofs.Number.Numeral
import FormulaSheet.Proofs.Token.Blanks

/-!
# Names of cells

A cell is named `:col:row`, on the command line as well as in a formula. On the command line the
digits are natural numbers, and those that need more than sixty-four bits are refused. In a formula
the digits are binary64 numbers: they are rounded to fifty-three bits first, what is above `2 ^ 64`
is refused, and `2 ^ 64` itself stands for the largest index. So the two readers name the same cell
as long as rounding keeps both indices, which it does up to `2 ^ 53`.

## Main definitions

* `Numeral.index?`, `Numeral.roundedIndex`: the index that digits name for either reader.
* `IsKept`: the indices that a formula can name.

## Main results

* `CellRef.ofText?_cellName`, `Expr.parse_cellName`: what a name means to either reader.
* `Grammar.cellName_readers`: the names that mean the same to both readers.
-/

namespace FormulaSheet

namespace Numeral

/-! ### Digits in a formula -/

/-- Digits are a word. -/
def word (a : Numeral) : Token.Word where
  chars := a.chars
  ne_nil := a.ne_nil
  not_isSeparator c hc := Grammar.isSeparator_of_isDigit (a.isDigit c hc)

theorem read?_chars (a : Numeral) :
    Literal.read? a.chars = some (Binary64.nearest false a.value 1) := by
  rw [Literal.read?_digits a.isDigit a.ne_nil, Literal.toFloat_natural]
  rfl

theorem token_word (a : Numeral) : a.word.token = ⟨.number, a.text⟩ :=
  Token.Word.token_of_isSome (w := a.word) (Option.isSome_iff_exists.2 ⟨_, a.read?_chars⟩)

/-! ### The two readings of an index -/

/-- The index that the digits denote, if it fits into sixty-four bits. -/
def index? (a : Numeral) : Option UInt64 :=
  if a.value < 2 ^ 64 then some (UInt64.ofNat a.value) else none

/-- The index of the digits as a number rounded to fifty-three bits. The first number that does not
fit into sixty-four bits stands for the largest index; those above it are refused. -/
def roundedIndex (a : Numeral) : Except ParseError UInt64 :=
  if Binary64.roundNatural a.value ≤ 2 ^ 64 then
    .ok (UInt64.ofNat (min (Binary64.roundNatural a.value) (2 ^ 64 - 1)))
  else .error (.notACoordinate a.text)

theorem coordinate?_chars (a : Numeral) : CellRef.coordinate? a.chars = a.index? := by
  have hdigits : a.chars ≠ [] ∧ a.chars.all Char.isDigit = true :=
    ⟨a.ne_nil, List.all_eq_true.2 a.isDigit⟩
  rw [CellRef.coordinate?, index?]
  simp only [hdigits, true_and, ne_eq, not_false_eq_true]
  rfl

theorem coordinate_text (a : Numeral) : Reader.coordinate a.text = a.roundedIndex := by
  have hnumber : Reader.number a.text = .ok (Binary64.nearest false a.value 1) := by
    rw [Reader.number, toList_text, a.read?_chars]
  have hsize : UInt64.size = 2 ^ 64 := rfl
  rw [Reader.coordinate, hnumber, roundedIndex]
  simp only [bind, Except.bind, hsize]
  by_cases hle : Binary64.roundNatural a.value ≤ 2 ^ 64
  · rw [Binary64.natural?_nearest_of_le hle]
  · rw [Binary64.natural?_nearest, if_neg hle]
    by_cases hlt : Binary64.roundNatural a.value < 2 ^ 1024
    · rw [if_pos hlt]
      exact if_neg hle
    · rw [if_neg hlt]

end Numeral

/-! ### What a name means -/

/-- The name of a cell, with these digits. -/
def cellName (col row : Numeral) : String :=
  ":" ++ col.text ++ ":" ++ row.text

theorem toList_cellName (col row : Numeral) :
    (cellName col row).toList = ':' :: (col.chars ++ ':' :: row.chars) := by
  simp [cellName]

theorem CellRef.text_eq_cellName (c : CellRef) :
    c.text = cellName (.ofNat c.col.toNat) (.ofNat c.row.toNat) := by
  rw [text, cellName, Numeral.text_ofNat, Numeral.text_ofNat]

/-- On the command line both indices are exact. -/
theorem CellRef.ofText?_cellName (a b : Numeral) :
    ofText? (cellName a b) = do
      let col ← a.index?
      let row ← b.index?
      return ⟨col, row⟩ := by
  have hlast : (a.chars ++ ':' :: b.chars).rdropWhile Text.isBlank = a.chars ++ ':' :: b.chars := by
    rw [List.rdropWhile_eq_self_iff]
    intro hne hblank
    rw [List.getLast_append_of_ne_nil hne (List.cons_ne_nil _ _),
      List.getLast_cons b.ne_nil] at hblank
    have hseparator := b.word.not_isSeparator _ (List.getLast_mem b.ne_nil)
    rw [Token.isSeparator, hblank, Bool.or_true] at hseparator
    cases hseparator
  have htake : (a.chars ++ ':' :: b.chars).takeWhile Char.isDigit = a.chars := by
    rw [List.takeWhile_append_of_pos a.isDigit, List.takeWhile_cons_of_neg (by decide),
      List.append_nil]
  have hdrop : (a.chars ++ ':' :: b.chars).dropWhile Char.isDigit = ':' :: b.chars := by
    rw [List.dropWhile_append_of_pos a.isDigit, List.dropWhile_cons_of_neg (by decide)]
  rw [ofText?, toList_cellName, Text.trimChars_cons (by decide), hlast, ofChars?]
  simp only [htake, hdrop, Numeral.coordinate?_chars]
  cases a.index? <;> cases b.index? <;> rfl

theorem ofText_cellName (a b : Numeral) :
    Token.ofText (cellName a b) =
      [Token.colon, ⟨.number, a.text⟩, Token.colon, ⟨.number, b.text⟩] := by
  have hapart : Token.Apart (':' :: b.chars) := Token.apart_cons _ rfl
  have hrow : Token.scan [] b.chars = [⟨.number, b.text⟩] := by
    have hscan := Token.scan_word_append b.word Token.apart_nil
    rw [List.append_nil, b.token_word] at hscan
    exact hscan
  have hcol := Token.scan_word_append a.word hapart
  rw [a.token_word, Token.scan_colon, hrow] at hcol
  rw [Token.ofText, toList_cellName, Token.scan_colon]
  exact congrArg (List.cons Token.colon) hcol

/-- In a formula both indices are rounded. -/
theorem Expr.parse_cellName (a b : Numeral) :
    parse (cellName a b) = do
      let col ← a.roundedIndex
      let row ← b.roundedIndex
      return .ofCell ⟨col, row⟩ := by
  rw [parse, ofText_cellName, ofTokens, ← a.coordinate_text, ← b.coordinate_text]
  cases hcol : Reader.coordinate a.text with
  | error e =>
    simp [Reader.read, Reader.start, Reader.isAtEnd, Reader.step, Reader.item, Token.colon, hcol,
      bind, Except.bind]
  | ok col =>
    cases hrow : Reader.coordinate b.text with
    | error e =>
      simp [Reader.read, Reader.start, Reader.isAtEnd, Reader.step, Reader.item, Token.colon, hcol,
        hrow, bind, Except.bind]
    | ok row =>
      simp [Reader.read, Reader.start, Reader.isAtEnd, Reader.step, Reader.item, Token.colon, hcol,
        hrow, bind, Except.bind, Reader.push, Reader.finish, Region.close, foldOperators,
        Region.single, pure, Except.pure]

/-! ### Names that mean the same -/

/-- An index that is the same after rounding. -/
def IsKept (n : Nat) : Prop :=
  min (Binary64.roundNatural n) (2 ^ 64 - 1) = n

theorem isKept_of_le {n : Nat} (hn : n ≤ 2 ^ 53) : IsKept n := by
  have hsignificant : Binary64.IsSignificant n := by
    rcases hn.lt_or_eq with hlt | rfl
    · exact Binary64.isSignificant_of_lt hlt
    · exact ⟨1, 53, by decide, by decide⟩
  rw [IsKept, Binary64.roundNatural_of_isSignificant hsignificant]
  omega

namespace Numeral

variable {a : Numeral} {i : UInt64}

theorem index?_eq_some_iff : a.index? = some i ↔ a.value = i.toNat := by
  rw [index?]
  constructor
  · intro h
    obtain ⟨hlt, hi⟩ := Option.ite_none_right_eq_some.1 h
    have hi : UInt64.ofNat a.value = i := by simpa using hi
    rw [← hi, UInt64.toNat_ofNat', Nat.mod_eq_of_lt hlt]
  · intro h
    rw [h, if_pos i.toNat_lt, UInt64.ofNat_toNat]

theorem roundedIndex_eq_ok_iff : a.roundedIndex = .ok i ↔
    Binary64.roundNatural a.value ≤ 2 ^ 64 ∧
      min (Binary64.roundNatural a.value) (2 ^ 64 - 1) = i.toNat := by
  rw [roundedIndex]
  by_cases hle : Binary64.roundNatural a.value ≤ 2 ^ 64
  · have hlt : min (Binary64.roundNatural a.value) (2 ^ 64 - 1) < 2 ^ 64 := by
      omega
    rw [if_pos hle, Except.ok.injEq, ← UInt64.toNat_inj, UInt64.toNat_ofNat', Nat.mod_eq_of_lt hlt]
    exact (and_iff_right hle).symm
  · rw [if_neg hle]
    exact iff_of_false nofun fun h => hle h.1

/-- An index that fits into sixty-four bits is never refused. -/
theorem roundedIndex_eq_ok_iff_of_lt (ha : a.value < 2 ^ 64) : a.roundedIndex = .ok i ↔
    min (Binary64.roundNatural a.value) (2 ^ 64 - 1) = i.toNat := by
  rw [roundedIndex_eq_ok_iff]
  exact and_iff_right (Binary64.roundNatural_le ha)

/-- A kept index is read as it is. -/
theorem roundedIndex_of_isKept (ha : IsKept a.value) :
    a.roundedIndex = .ok i ↔ a.index? = some i := by
  have hlt : a.value < 2 ^ 64 := by
    rw [IsKept] at ha
    omega
  rw [roundedIndex_eq_ok_iff_of_lt hlt, index?_eq_some_iff, ha]

theorem exists_roundedIndex (ha : Binary64.roundNatural a.value ≤ 2 ^ 64) :
    ∃ i, a.roundedIndex = .ok i := by
  rw [roundedIndex, if_pos ha]
  exact ⟨_, rfl⟩

theorem isKept_of_index? (hrounded : a.roundedIndex = .ok i) (hexact : a.index? = some i) :
    IsKept a.value := by
  rw [IsKept, (roundedIndex_eq_ok_iff.1 hrounded).2, index?_eq_some_iff.1 hexact]

/-- What is too large after rounding is too large for either reader. -/
theorem index?_of_lt_roundNatural (ha : 2 ^ 64 < Binary64.roundNatural a.value) :
    a.index? = none := by
  rw [index?, if_neg]
  intro hlt
  exact absurd (Binary64.roundNatural_le hlt) (not_le.2 ha)

theorem roundedIndex_of_lt_roundNatural (ha : 2 ^ 64 < Binary64.roundNatural a.value) :
    a.roundedIndex = .error (.notACoordinate a.text) := by
  rw [roundedIndex, if_neg (not_le.2 ha)]

end Numeral

theorem CellRef.ofText?_cellName_eq_some_iff {a b : Numeral} {c : CellRef} :
    ofText? (cellName a b) = some c ↔ a.index? = some c.col ∧ b.index? = some c.row := by
  obtain ⟨col, row⟩ := c
  rw [ofText?_cellName]
  cases a.index? <;> cases b.index? <;> simp

theorem Expr.ofCell_inj {c d : CellRef} : ofCell c = ofCell d ↔ c = d := by
  constructor
  · intro h
    injection h
  · rintro rfl
    rfl

theorem Expr.parse_cellName_eq_ok_iff {a b : Numeral} {c : CellRef} :
    parse (cellName a b) = .ok (.ofCell c) ↔
      a.roundedIndex = .ok c.col ∧ b.roundedIndex = .ok c.row := by
  obtain ⟨col, row⟩ := c
  rw [parse_cellName]
  cases a.roundedIndex <;> cases b.roundedIndex <;>
    simp [bind, Except.bind, pure, Except.pure, ofCell_inj]

namespace Grammar

/-- Either reader names the same cell when rounding keeps both indices, and both refuse when
rounding makes an index too large. All other names mean different cells, or a cell to one only. -/
theorem readers_agree_iff (a b : Numeral) :
    (∀ c, CellRef.ofText? (cellName a b) = some c ↔
        Expr.parse (cellName a b) = .ok (.ofCell c)) ↔
      (IsKept a.value ∧ IsKept b.value) ∨ 2 ^ 64 < Binary64.roundNatural a.value ∨
        2 ^ 64 < Binary64.roundNatural b.value := by
  simp only [CellRef.ofText?_cellName_eq_some_iff, Expr.parse_cellName_eq_ok_iff]
  constructor
  · intro hagree
    rcases Nat.lt_or_ge (2 ^ 64) (Binary64.roundNatural a.value) with ha | ha
    · exact Or.inr (Or.inl ha)
    rcases Nat.lt_or_ge (2 ^ 64) (Binary64.roundNatural b.value) with hb | hb
    · exact Or.inr (Or.inr hb)
    -- a formula can name a cell with these digits, which by assumption has their indices
    obtain ⟨col, hcol⟩ := Numeral.exists_roundedIndex ha
    obtain ⟨row, hrow⟩ := Numeral.exists_roundedIndex hb
    obtain ⟨hcol', hrow'⟩ := (hagree ⟨col, row⟩).2 ⟨hcol, hrow⟩
    exact Or.inl ⟨Numeral.isKept_of_index? hcol hcol', Numeral.isKept_of_index? hrow hrow'⟩
  · rintro (⟨ha, hb⟩ | ha | hb) c
    · rw [Numeral.roundedIndex_of_isKept ha, Numeral.roundedIndex_of_isKept hb]
    · simp [Numeral.index?_of_lt_roundNatural ha, Numeral.roundedIndex_of_lt_roundNatural ha]
    · simp [Numeral.index?_of_lt_roundNatural hb, Numeral.roundedIndex_of_lt_roundNatural hb]

/-- The written form of a cell is a formula for that cell when rounding keeps both indices. -/
theorem parse_text_cellRef_iff (c : CellRef) :
    Expr.parse c.text = .ok (.ofCell c) ↔ IsKept c.col.toNat ∧ IsKept c.row.toNat := by
  have hcol : (Numeral.ofNat c.col.toNat).value < 2 ^ 64 := by
    rw [Numeral.value_ofNat]
    exact c.col.toNat_lt
  have hrow : (Numeral.ofNat c.row.toNat).value < 2 ^ 64 := by
    rw [Numeral.value_ofNat]
    exact c.row.toNat_lt
  rw [c.text_eq_cellName, Expr.parse_cellName_eq_ok_iff,
    Numeral.roundedIndex_eq_ok_iff_of_lt hcol, Numeral.roundedIndex_eq_ok_iff_of_lt hrow,
    Numeral.value_ofNat, Numeral.value_ofNat, IsKept, IsKept]

/-- **Names of cells.** The command line reads the digits of a name exactly, and a formula rounds
them to fifty-three bits. So the two readers agree on a name when rounding keeps both of its
indices, or when it makes one of them too large for either; and the written form of a cell means
that cell in a formula when rounding keeps its indices, in particular up to `2 ^ 53`. -/
theorem cellName_readers (a b : Numeral) (c : CellRef) :
    CellRef.ofText? (cellName a b) = (do
        let col ← a.index?
        let row ← b.index?
        return ⟨col, row⟩) ∧
      Expr.parse (cellName a b) = (do
        let col ← a.roundedIndex
        let row ← b.roundedIndex
        return .ofCell ⟨col, row⟩) ∧
      ((∀ c, CellRef.ofText? (cellName a b) = some c ↔
          Expr.parse (cellName a b) = .ok (.ofCell c)) ↔
        (IsKept a.value ∧ IsKept b.value) ∨ 2 ^ 64 < Binary64.roundNatural a.value ∨
          2 ^ 64 < Binary64.roundNatural b.value) ∧
      (Expr.parse c.text = .ok (.ofCell c) ↔ IsKept c.col.toNat ∧ IsKept c.row.toNat) ∧
      (c.col.toNat ≤ 2 ^ 53 → c.row.toNat ≤ 2 ^ 53 → Expr.parse c.text = .ok (.ofCell c)) := by
  have htext := parse_text_cellRef_iff c
  refine ⟨CellRef.ofText?_cellName a b, Expr.parse_cellName a b, readers_agree_iff a b, htext, ?_⟩
  intro hcol hrow
  exact htext.2 ⟨isKept_of_le hcol, isKept_of_le hrow⟩

/-- The first index that a formula cannot name. -/
theorem cellName_differs :
    CellRef.ofText? ":9007199254740993:0" = some ⟨9007199254740993, 0⟩ ∧
      (Expr.parse ":9007199254740993:0").toOption = some (.ofCell ⟨9007199254740992, 0⟩) := by
  decide +kernel

end Grammar

end FormulaSheet
