import FormulaSheet.Expr.Parsing
import FormulaSheet.Proofs.Grammar.Chain

/-!
# Everything derivable is read

The reader takes the tokens of a derivation from left to right. The tokens of an operand leave it
with one item more, those of a repetition with the items of the repetition, and those of the
arguments of a call with the call, once the parenthesis is closed.

## Main definitions

* `Reader.steps`: what is known after some tokens.
* `Derivation.IsRead`: how the reader takes the tokens of a derivation from each symbol.

## Main results

* `Grammar.ofTokens_eq`: a formula is read by taking all its tokens.
* `Grammar.ofTokens_tokens`: the tokens of a derivation are read as its expression.
-/

namespace FormulaSheet

/-! ### Many steps -/

namespace Reader

/-- What is known after some tokens. -/
def steps (r : Reader) (ts : List Token) : Except ParseError Reader :=
  ts.foldlM step r

theorem steps_cons (r : Reader) (t : Token) (ts : List Token) :
    r.steps (t :: ts) = r.step t >>= fun r => r.steps ts :=
  rfl

theorem steps_append (r : Reader) (ts us : List Token) :
    r.steps (ts ++ us) = r.steps ts >>= fun r => r.steps us :=
  List.foldlM_append

theorem steps_cons_of_step {r r' : Reader} {t : Token} (h : r.step t = .ok r') (ts : List Token) :
    r.steps (t :: ts) = r'.steps ts := by
  rw [steps_cons, h]
  rfl

theorem steps_append_of_steps {r r' : Reader} {ts : List Token} (h : r.steps ts = .ok r')
    (us : List Token) : r.steps (ts ++ us) = r'.steps us := by
  rw [steps_append, h]
  rfl

/-- Without kinds of tokens to end at, the reader takes all tokens. -/
theorem read_eq (r : Reader) (ts : List Token) :
    ∃ rest, read [] r ts = (r.steps ts >>= finish, rest) ∧
      ∀ e, r.steps ts >>= finish = .ok e → rest = [] := by
  induction ts generalizing r with
  | nil => exact ⟨[], rfl, fun _ _ => rfl⟩
  | cons t ts ih =>
    have hend : r.isAtEnd [] t = false := by simp [isAtEnd]
    rw [read, steps_cons]
    simp only [hend, Bool.false_eq_true, if_false]
    cases r.step t with
    | ok r' => exact ih r'
    | error e => exact ⟨_, rfl, fun _ h => by cases h⟩

end Reader

namespace Grammar

open Reader Token Grammar.Derivation

/-- A formula is read by taking all its tokens. -/
theorem ofTokens_eq (ts : List Token) : Expr.ofTokens ts = start.steps ts >>= finish := by
  obtain ⟨rest, hread, hrest⟩ := read_eq start ts
  rw [Expr.ofTokens, hread]
  cases h : start.steps ts >>= finish with
  | error e => rfl
  | ok e => rw [hrest e h]

/-! ### Numbers and coordinates -/

theorem number_text_eq_ok_iff (w : Word) (x : Float) :
    Reader.number w.text = .ok x ↔ Literal.read? w.chars = some x := by
  rw [Reader.number, Word.toList_text]
  cases Literal.read? w.chars with
  | none => simp
  | some y => simp

/-- The coordinates of the grammar are the words that the reader takes for coordinates. -/
theorem coordinate_text_eq_ok_iff (w : Word) (i : UInt64) :
    Reader.coordinate w.text = .ok i ↔ ∃ c : Coordinate, c.word = w ∧ c.index = i := by
  constructor
  · intro h
    obtain ⟨x, hx, h⟩ := exists_of_bind_eq_ok h
    split at h
    · next n hn =>
      split_ifs at h with hle
      exact ⟨⟨w, x, n, (number_text_eq_ok_iff w x).1 hx, (Binary64.natural?_eq_some_iff x n).1 hn,
        hle⟩, rfl, Except.ok.inj h⟩
    · cases h
  · rintro ⟨c, rfl, rfl⟩
    have hnatural := (Binary64.natural?_eq_some_iff _ _).2 c.rational?_value
    have hle : c.number ≤ UInt64.size := c.number_le
    simp only [Reader.coordinate, (number_text_eq_ok_iff _ _).2 c.read?_word, bind, Except.bind,
      hnatural]
    exact if_pos hle

/-! ### The tokens of a derivation -/

/-- How the reader takes the tokens of a derivation: it gains the items of the derivation, or, after
the closing parenthesis, the call whose arguments were derived. -/
def Derivation.IsRead : {σ : Symbol} → Derivation σ → Prop
  | .arguments, d => ∀ name outer brackets,
    steps ⟨[], .call name [] outer :: brackets, .item⟩ (d.tokens ++ [closeParen]) =
      .ok ⟨.operand (.ofCall name d.toExpr) :: outer, brackets, .item⟩
  | .argumentsRest, d => ∀ name args outer brackets items e, Region.close items.reverse = .ok e →
    steps ⟨items, .call name args outer :: brackets, .item⟩ (d.tokens ++ [closeParen]) =
      .ok ⟨.operand (.ofCall name (args.reverse ++ e :: d.toExpr)) :: outer, brackets, .item⟩
  | _, d => ∀ items brackets,
    steps ⟨items, brackets, .item⟩ d.tokens = .ok ⟨d.items.reverse ++ items, brackets, .item⟩

section Steps

variable (items : List Item) (brackets : List Bracket)

theorem step_number {w : Word} {x : Float} (h : Literal.read? w.chars = some x) :
    step ⟨items, brackets, .item⟩ w.token =
      .ok ⟨.operand (.constant x w.text) :: items, brackets, .item⟩ := by
  rw [Word.token_of_isSome (by simp [h]), step, item, (number_text_eq_ok_iff w x).2 h]
  rfl

theorem step_operator (op : Operator) :
    step ⟨items, brackets, .item⟩ (ofOperator op) =
      .ok ⟨.operator op :: items, brackets, .item⟩ := by
  simp [step, item, ofOperator, push]

theorem steps_reference (col row : Coordinate) :
    steps ⟨items, brackets, .item⟩ [colon, col.word.token, colon, row.word.token] =
      .ok ⟨.operand (.ofCell ⟨col.index, row.index⟩) :: items, brackets, .item⟩ := by
  have hcol := (coordinate_text_eq_ok_iff _ _).2 ⟨col, rfl, rfl⟩
  have hrow := (coordinate_text_eq_ok_iff _ _).2 ⟨row, rfl, rfl⟩
  rw [Word.token_of_isSome (by simp [col.read?_word]),
    Word.token_of_isSome (by simp [row.read?_word])]
  have hlast : step ⟨items, brackets, .row col.word.text⟩ ⟨.number, row.word.text⟩ =
      .ok ⟨.operand (.ofCell ⟨col.index, row.index⟩) :: items, brackets, .item⟩ := by
    simp only [step, hcol, hrow, if_true]
    rfl
  exact steps_cons_of_step hlast []

theorem steps_call {name : Word} (h : Literal.read? name.chars = none) (ts : List Token) :
    steps ⟨items, brackets, .item⟩ (name.token :: openParen :: ts) =
      steps ⟨[], .call name.text [] items :: brackets, .item⟩ ts := by
  rw [Word.token_of_eq_none h]
  rfl

theorem steps_group (ts : List Token) :
    steps ⟨items, brackets, .item⟩ (openParen :: ts) =
      steps ⟨[], .group items :: brackets, .item⟩ ts :=
  rfl

end Steps

/-- The reader takes the tokens of every derivation. -/
theorem isRead {σ : Symbol} (d : Derivation σ) : d.IsRead := by
  induction d with
  | expr first rest hfirst hrest | term first rest hfirst hrest =>
    intro items brackets
    rw [Derivation.tokens, steps_append_of_steps (hfirst items brackets), hrest, Derivation.items]
    simp
  | exprEnd | termEnd => exact fun _ _ => rfl
  | exprNext op _ next rest hnext hrest | termNext op _ next rest hnext hrest =>
    intro items brackets
    rw [Derivation.tokens, steps_cons_of_step (step_operator items brackets op),
      steps_append_of_steps (hnext _ brackets), hrest, Derivation.items]
    simp
  | number word value hword =>
    intro items brackets
    exact steps_cons_of_step (step_number items brackets hword) []
  | reference col row =>
    intro items brackets
    exact steps_reference items brackets col row
  | call name hname args hargs =>
    intro items brackets
    rw [Derivation.tokens, steps_call items brackets hname, hargs]
    rfl
  | group inner hinner =>
    intro items brackets
    have hclose : step ⟨inner.items.reverse ++ [], .group items :: brackets, .item⟩ closeParen =
        .ok ⟨.operand inner.toExpr.parenthesized :: items, brackets, .item⟩ := by
      simp only [step, item, closeParen, closing, List.append_nil, List.reverse_reverse,
        close_items]
      rfl
    rw [Derivation.tokens, steps_group, steps_append_of_steps (hinner [] _)]
    exact steps_cons_of_step hclose []
  | noArguments => exact fun _ _ _ => rfl
  | arguments first rest hfirst hrest =>
    intro name outer brackets
    have hclose : Region.close (first.items.reverse ++ []).reverse = .ok first.toExpr := by
      simpa using close_items first
    rw [Derivation.tokens, List.append_assoc, steps_append_of_steps (hfirst [] _),
      hrest name [] outer brackets _ _ hclose]
    rfl
  | argumentsEnd =>
    intro name args outer brackets items e hclose
    have hitems : items.isEmpty = false := by
      simpa using ne_nil_of_close hclose
    have hstep : step ⟨items, .call name args outer :: brackets, .item⟩ closeParen =
        .ok ⟨.operand (.ofCall name (args.reverse ++ [e])) :: outer, brackets, .item⟩ := by
      simp only [step, item, closeParen, closing, hitems, hclose, Bool.false_and,
        Bool.false_eq_true, if_false, ← List.reverse_cons]
      rfl
    exact steps_cons_of_step hstep []
  | argumentsNext next rest hnext hrest =>
    intro name args outer brackets items e hclose
    have hstep : step ⟨items, .call name args outer :: brackets, .item⟩ comma =
        .ok ⟨[], .call name (e :: args) outer :: brackets, .item⟩ := by
      simp only [step, item, Token.comma, Reader.comma, hclose]
      rfl
    have hnextClose : Region.close (next.items.reverse ++ []).reverse = .ok next.toExpr := by
      simpa using close_items next
    rw [Derivation.tokens, List.cons_append, steps_cons_of_step hstep, List.append_assoc,
      steps_append_of_steps (hnext [] _), hrest name (e :: args) outer brackets _ _ hnextClose,
      List.reverse_cons, List.append_assoc]
    rfl

/-- The tokens of a derivation are read as its expression. -/
theorem ofTokens_tokens (d : Derivation .expr) : Expr.ofTokens d.tokens = .ok d.toExpr := by
  have hsteps : start.steps d.tokens = .ok ⟨d.items.reverse ++ [], [], .item⟩ := isRead d [] []
  rw [ofTokens_eq, hsteps]
  change finish ⟨d.items.reverse ++ [], [], .item⟩ = _
  rw [List.append_nil, finish, List.reverse_reverse, close_items]
  rfl

end Grammar

end FormulaSheet
