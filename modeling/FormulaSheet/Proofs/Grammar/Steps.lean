import FormulaSheet.Proofs.Grammar.Completeness

/-!
# What one token does

A token that is taken opens a bracket, closes the innermost one, ends an argument, completes an item
or leaves one begun. A token that is not taken is at fault, or it ends a region that does not close.
The two passes over a region take all its operators: each joins the operands around those that it
selects, or fails, and leaves the others in order. So no operator is left when one operand should
remain, and that is none of the faults a reader can have.

## Main definitions

* `Region.Fault`: the faults of a region.
* `Reader.Taken`: what a token that is taken does to the reader.
* `Reader.Fault`: the faults of a reader in front of a token or of the end of the formula.
* `Reader.Stepped`: what one token comes to.

## Main results

* `operators_of_foldOperators`: the operators that a pass leaves.
* `Reader.stepped`: every token is taken or at fault.
* `Reader.fault_of_finish`: the faults at the end of the formula.
-/

namespace FormulaSheet

/-! ### Operators in a region -/

/-- The operator that an item is, if it is one. -/
def Item.operator? : Item → Option Operator
  | operand _ => none
  | operator op => some op

/-- The operators among items, in order. -/
def operators (items : List Item) : List Operator :=
  items.filterMap Item.operator?

@[simp] theorem operators_nil : operators [] = [] :=
  rfl

@[simp] theorem operators_operand (e : Expr) (items : List Item) :
    operators (.operand e :: items) = operators items :=
  rfl

@[simp] theorem operators_operator (op : Operator) (items : List Item) :
    operators (.operator op :: items) = op :: operators items :=
  rfl

@[simp] theorem operators_append (items items' : List Item) :
    operators (items ++ items') = operators items ++ operators items' :=
  List.filterMap_append

theorem mem_operators_iff {items : List Item} {op : Operator} :
    op ∈ operators items ↔ .operator op ∈ items := by
  rw [operators, List.mem_filterMap]
  constructor
  · rintro ⟨_ | op', hmem, heq⟩
    · cases heq
    · cases heq
      exact hmem
  · exact fun hmem => ⟨.operator op, hmem, rfl⟩

/-- A pass leaves the operators that it does not select, in order, and no others. -/
theorem operators_of_foldOperators {selects : Operator → Bool} {done items out : List Item}
    (h : foldOperators selects done items = .ok out) :
    operators out = operators done.reverse ++ (operators items).filter fun op => !selects op := by
  fun_induction foldOperators selects done items with
  | case1 done =>
    cases h
    exact (List.append_nil _).symm
  | case2 done e rest ih => simpa using ih h
  | case3 op hop l done r rest ih => simpa [hop] using ih h
  | case4 | case5 => cases h
  | case6 done op rest hop ih => simpa [hop] using ih h

/-- Two passes leave no operator. -/
theorem operator_notMem_of_foldOperators {items first second : List Item}
    (hfirst : foldOperators Operator.isMultiplicative [] items = .ok first)
    (hsecond : foldOperators Operator.isAdditive [] first = .ok second) (op : Operator) :
    .operator op ∉ second := by
  rw [← mem_operators_iff, operators_of_foldOperators hsecond, operators_of_foldOperators hfirst]
  simp [Operator.isAdditive]

/-! ### Faults of a region -/

open Grammar

/-- The faults of a region. -/
inductive Region.Fault : ParseError → Prop where
  | emptyExpression : Fault .emptyExpression
  | missingLeft (op : Operator) : Fault (.missingLeft op)
  | missingRight (op : Operator) : Fault (.missingRight op)
  | missingOperator (before : String) : Fault (.missingOperator before)

theorem fault_of_foldOperators {selects : Operator → Bool} {done items : List Item} {e : ParseError}
    (h : foldOperators selects done items = .error e) : Region.Fault e := by
  fun_induction foldOperators selects done items with
  | case1 => cases h
  | case2 _ _ _ ih | case3 _ _ _ _ _ _ ih | case6 _ _ _ _ ih => exact ih h
  | case4 =>
    cases h
    exact .missingRight _
  | case5 =>
    cases h
    exact .missingLeft _

/-- A region that does not close has one of the faults of a region. -/
theorem Region.fault_of_close {items : List Item} {e : ParseError}
    (h : Region.close items = .error e) : Region.Fault e := by
  obtain h | ⟨first, hfirst, h⟩ := of_bind_eq_error h
  · exact fault_of_foldOperators h
  obtain h | ⟨second, hsecond, h⟩ := of_bind_eq_error h
  · exact fault_of_foldOperators h
  unfold Region.single at h
  split at h
  · cases h
    exact .emptyExpression
  · cases h
  · next op rest hlast =>
    have hmem : .operator op ∈ second := by
      rw [← List.mem_reverse, hlast]
      exact List.mem_cons_self
    exact absurd hmem (operator_notMem_of_foldOperators hfirst hsecond op)
  · cases h
    exact .missingOperator _

/-! ### One token -/

namespace Reader

open Token

variable {r r' : Reader} {t : Token} {e : ParseError}

/-- What a token that is taken does to the reader: it opens a bracket, closes the innermost one,
ends an argument, completes an item, or leaves an item begun. -/
inductive Taken (r : Reader) (t : Token) : Reader → Prop where
  | opens (b : Bracket) (hk : t.kind = .openParen) : Taken r t ⟨[], b :: r.brackets, .item⟩
  | closes {b brackets outer} (e : Expr) (hk : t.kind = .closeParen) (hnext : r.next = .item)
      (hb : r.brackets = b :: brackets) : Taken r t ⟨.operand e :: outer, brackets, .item⟩
  | argument {b b' brackets} (hk : t.kind = .comma) (hnext : r.next = .item)
      (hb : r.brackets = b :: brackets) : Taken r t ⟨[], b' :: brackets, .item⟩
  | completes (i : Item) (hk : t.kind ∉ [.openParen, .closeParen, .comma]) : Taken r t (r.push i)
  | begins {next} (hk : t.kind ∉ [.openParen, .closeParen, .comma]) (hnext : next ≠ .item) :
      Taken r t { r with next }

/-- The faults of a reader in front of a token, or of the end of the formula if there is none. -/
inductive Fault (r : Reader) : Option Token → ParseError → Prop where
  | region {f : ParseError} (t : Option Token) (h : Region.Fault f) : Fault r t f
  | expected (what : Wanted) (t : Option Token) : Fault r t (.expected what (t.map Token.text))
  | unclosedCall (name : String) : Fault r none (.unclosedCall name)
  | unexpected (t : Token) : Fault r (some t) (.unexpected t.text)
  | unknownOperator {t : Token} (hk : t.kind = .operator)
      (h : Operator.ofSymbol? t.text = none) : Fault r (some t) (.unknownOperator t.text)
  | notANumber {t : Token} (hk : t.kind = .number) (h : Literal.read? t.text.toList = none) :
      Fault r (some t) (.notANumber t.text)
  /-- The column of a reference is no number, which is found out at the row. -/
  | column {column : String} (hnext : r.next = .row column)
      (h : Literal.read? column.toList = none) (t : Token) : Fault r (some t) (.notANumber column)
  | notACoordinate (text : String) (t : Token) : Fault r (some t) (.notACoordinate text)

/-- What one token comes to. -/
inductive Stepped (r : Reader) (t : Token) : Except ParseError Reader → Prop where
  | taken {r' : Reader} (h : Taken r t r') : Stepped r t (.ok r')
  | fault {f : ParseError} (h : Fault r (some t) f) : Stepped r t (.error f)

theorem number_eq_error {text : String} (h : number text = .error e) :
    Literal.read? text.toList = none ∧ e = .notANumber text := by
  unfold number at h
  split at h
  · cases h
  · next hnone =>
    cases h
    exact ⟨hnone, rfl⟩

theorem coordinate_eq_error {text : String} (h : coordinate text = .error e) :
    Literal.read? text.toList = none ∧ e = .notANumber text ∨ e = .notACoordinate text := by
  obtain h | ⟨x, -, h⟩ := of_bind_eq_error h
  · exact .inl (number_eq_error h)
  · right
    split at h
    · split_ifs at h
      cases h
      rfl
    · cases h
      rfl

/-- A token that closes the region is at fault if that does not close. -/
theorem stepped_close {f : Expr → Reader} (h : ∀ e, Taken r t (f e)) :
    Stepped r t (Region.close r.items.reverse >>= fun e => .ok (f e)) := by
  cases hclose : Region.close r.items.reverse with
  | error e => exact .fault (.region _ (Region.fault_of_close hclose))
  | ok e => exact .taken (h e)

theorem stepped_comma (hk : t.kind = .comma) (hnext : r.next = .item) :
    Stepped r t (r.comma t) := by
  unfold Reader.comma
  split
  · next hb => exact stepped_close fun _ => .argument hk hnext hb
  · exact .fault (.unexpected t)

theorem stepped_closing (hk : t.kind = .closeParen) (hnext : r.next = .item) :
    Stepped r t (r.closing t) := by
  unfold Reader.closing
  split
  · next hb => exact stepped_close fun _ => .closes _ hk hnext hb
  · next hb =>
    split_ifs
    · exact .taken (.closes _ hk hnext hb)
    · exact stepped_close fun _ => .closes _ hk hnext hb
  · exact .fault (.unexpected t)

theorem stepped_item (hnext : r.next = .item) : Stepped r t (r.item t) := by
  unfold Reader.item
  cases hk : t.kind with
  | number =>
    cases hx : number t.text with
    | error e =>
      obtain ⟨hnone, rfl⟩ := number_eq_error hx
      exact .fault (.notANumber hk hnone)
    | ok x => exact .taken (.completes _ (by simp [hk]))
  | colon | identifier => exact .taken (.begins (by simp [hk]) nofun)
  | openParen => exact .taken (.opens _ hk)
  | operator =>
    cases hop : Operator.ofSymbol? t.text with
    | none => exact .fault (.unknownOperator hk hop)
    | some op => exact .taken (.completes _ (by simp [hk]))
  | comma => exact stepped_comma hk hnext
  | closeParen => exact stepped_closing hk hnext

/-- A token is taken or at fault. -/
theorem stepped (r : Reader) (t : Token) : Stepped r t (r.step t) := by
  unfold Reader.step
  split
  · next hnext => exact stepped_item hnext
  · split_ifs with hk
    · exact .taken (.begins (by simp [hk]) nofun)
    · exact .fault (.expected _ (some t))
  · split_ifs with hk
    · exact .taken (.begins (by simp [hk]) nofun)
    · exact .fault (.expected _ (some t))
  · next column hnext =>
    split_ifs with hk
    · cases hcol : coordinate column with
      | error e =>
        obtain ⟨hnone, rfl⟩ | rfl := coordinate_eq_error hcol
        · exact .fault (.column hnext hnone t)
        · exact .fault (.notACoordinate _ t)
      | ok col =>
        cases hrow : coordinate t.text with
        | error e =>
          obtain ⟨hnone, rfl⟩ | rfl := coordinate_eq_error hrow
          · exact .fault (.notANumber hk hnone)
          · exact .fault (.notACoordinate _ t)
        | ok row => exact .taken (.completes _ (by simp [hk]))
    · exact .fault (.expected _ (some t))
  · split_ifs with hk
    · exact .taken (.opens _ hk)
    · exact .fault (.expected _ (some t))

theorem taken_of_step (h : r.step t = .ok r') : Taken r t r' := by
  have hstepped := stepped r t
  rw [h] at hstepped
  cases hstepped with
  | taken h => exact h

theorem fault_of_step (h : r.step t = .error e) : Fault r (some t) e := by
  have hstepped := stepped r t
  rw [h] at hstepped
  cases hstepped with
  | fault h => exact h

/-- The faults at the end of the formula. -/
theorem fault_of_finish (h : r.finish = .error e) : Fault r none e := by
  unfold Reader.finish at h
  split at h
  · obtain h | ⟨_, _, h⟩ := of_bind_eq_error h
    · exact .region _ (Region.fault_of_close h)
    · split at h
      · cases h
      · cases h
        exact .expected _ none
      · cases h
        exact .unclosedCall _
  all_goals
    cases h
    exact .expected _ none

end Reader

end FormulaSheet
