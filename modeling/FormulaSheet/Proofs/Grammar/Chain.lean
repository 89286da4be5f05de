import FormulaSheet.Expr.Region
import FormulaSheet.Proofs.Grammar.Derivation

/-!
# Regions and derivations

A region becomes an expression by two passes over a flat list, where the grammar has two levels of
symbols. Both agree: the items of a derivation close to its expression, and whatever closes has
operands and operators in turns, so it is the list of items of some derivation.

## Main definitions

* `Derivation.items`: the items that a derivation puts into its region.
* `alternates`: operands and operators in turns.
* `Derivation.prepend`: a derivation with an operand and an operator in front of it.

## Main results

* `Grammar.close_items`: the items of a derivation close to its expression.
* `Grammar.alternates_of_close`: items that close stand in turns.
-/

namespace FormulaSheet.Grammar

open Grammar.Derivation

/-! ### The items of a derivation -/

/-- The items that a derivation puts into its region. -/
def Derivation.items : {σ : Symbol} → Derivation σ → List Item
  | _, expr first rest => first.items ++ rest.items
  | _, exprEnd => []
  | _, exprNext op _ next rest => .operator op :: (next.items ++ rest.items)
  | _, term first rest => first.items ++ rest.items
  | _, termEnd => []
  | _, termNext op _ next rest => .operator op :: (next.items ++ rest.items)
  | .factor, d => [.operand d.toExpr]
  | .arguments, _ => []
  | .argumentsRest, _ => []

/-- The operators of a repetition, each with the expression to the right of it. -/
def Derivation.operations : {σ : Symbol} → Derivation σ → List (Operator × Expr)
  | _, exprNext op _ next rest => (op, next.toExpr) :: rest.operations
  | _, termNext op _ next rest => (op, next.toExpr) :: rest.operations
  | _, _ => []

/-- Items in turns, an operator first. -/
def chain (ops : List (Operator × Expr)) : List Item :=
  ops.flatMap fun p => [.operator p.1, .operand p.2]

/-- The expression of a chain of operators, from left to right. -/
def applyChain (e : Expr) (ops : List (Operator × Expr)) : Expr :=
  ops.foldl (fun left p => .ofBinary p.1 left p.2) e

@[simp] theorem items_factor (d : Derivation .factor) : d.items = [.operand d.toExpr] := by
  cases d <;> rfl

theorem toExpr_termRest : (d : Derivation .termRest) → ∀ e, d.toExpr e = applyChain e d.operations
  | .termEnd, _ => rfl
  | .termNext _ _ _ rest, _ => toExpr_termRest rest _

theorem toExpr_exprRest : (d : Derivation .exprRest) → ∀ e, d.toExpr e = applyChain e d.operations
  | .exprEnd, _ => rfl
  | .exprNext _ _ _ rest, _ => toExpr_exprRest rest _

theorem items_termRest : (d : Derivation .termRest) → d.items = chain d.operations
  | .termEnd => rfl
  | .termNext op _ next rest => by
    rw [Derivation.items, items_factor, items_termRest rest]
    rfl

theorem operations_termRest : (d : Derivation .termRest) →
    ∀ p ∈ d.operations, p.1.isMultiplicative = true
  | .termEnd, _, hp => by cases hp
  | .termNext _ hop _ rest, p, hp => by
    rcases List.mem_cons.1 hp with rfl | hp
    · exact hop
    · exact operations_termRest rest p hp

theorem operations_exprRest : (d : Derivation .exprRest) →
    ∀ p ∈ d.operations, p.1.isAdditive = true
  | .exprEnd, _, hp => by cases hp
  | .exprNext _ hop _ rest, p, hp => by
    rcases List.mem_cons.1 hp with rfl | hp
    · exact hop
    · exact operations_exprRest rest p hp

/-! ### Two passes over the items of a derivation -/

/-- A pass leaves an operator that it does not select. -/
theorem foldOperators_of_not_selects {selects : Operator → Bool} {op : Operator}
    (hop : selects op = false) (done rest : List Item) :
    foldOperators selects done (.operator op :: rest) =
      foldOperators selects (.operator op :: done) rest := by
  rw [foldOperators.eq_def]
  simp [hop]

/-- A pass joins a chain of operators that it selects. -/
theorem foldOperators_chain {selects : Operator → Bool} {ops : List (Operator × Expr)}
    (hops : ∀ p ∈ ops, selects p.1 = true) (done rest : List Item) (e : Expr) :
    foldOperators selects (.operand e :: done) (chain ops ++ rest) =
      foldOperators selects (.operand (applyChain e ops) :: done) rest := by
  induction ops generalizing e with
  | nil => rfl
  | cons p ops ih =>
    have hp := hops p (by simp)
    have hitems : chain (p :: ops) ++ rest = .operator p.1 :: .operand p.2 :: (chain ops ++ rest) :=
      rfl
    rw [hitems, foldOperators, if_pos hp]
    exact ih (fun q hq => hops q (by simp [hq])) _

/-- The first pass turns the items of a term into one operand. -/
theorem foldOperators_term (d : Derivation .term) (done rest : List Item) :
    foldOperators Operator.isMultiplicative done (d.items ++ rest) =
      foldOperators Operator.isMultiplicative (.operand d.toExpr :: done) rest := by
  cases d with
  | term first more =>
    rw [Derivation.items, items_factor, items_termRest, List.append_assoc, List.singleton_append,
      foldOperators, foldOperators_chain (operations_termRest more)]
    exact congrArg (foldOperators _ · _) (congrArg (Item.operand · :: _) (toExpr_termRest ..).symm)

/-- The first pass leaves the additive operators between the terms. -/
theorem foldOperators_exprRest : (d : Derivation .exprRest) → ∀ done,
    foldOperators Operator.isMultiplicative done d.items = .ok (done.reverse ++ chain d.operations)
  | .exprEnd, done => by simp [Derivation.items, foldOperators, Derivation.operations, chain]
  | .exprNext op hop next rest, done => by
    have hop' : op.isMultiplicative = false := by simpa [Operator.isAdditive] using hop
    rw [Derivation.items, foldOperators_of_not_selects hop', foldOperators_term,
      foldOperators_exprRest rest]
    simp [Derivation.operations, chain]

/-- The items of a derivation close to its expression. -/
theorem close_items (d : Derivation .expr) : Region.close d.items = .ok d.toExpr := by
  cases d with
  | expr first rest =>
    have hfirst : foldOperators Operator.isMultiplicative [] (expr first rest).items =
        .ok (.operand first.toExpr :: chain rest.operations) := by
      rw [Derivation.items, foldOperators_term, foldOperators_exprRest]
      rfl
    have hsecond : foldOperators Operator.isAdditive []
        (.operand first.toExpr :: chain rest.operations) =
        .ok [.operand (applyChain first.toExpr rest.operations)] := by
      have hchain := foldOperators_chain (operations_exprRest rest) [] [] first.toExpr
      rw [List.append_nil] at hchain
      rw [foldOperators, hchain]
      rfl
    have hexpr : (expr first rest).toExpr = applyChain first.toExpr rest.operations :=
      toExpr_exprRest rest _
    rw [hexpr, Region.close, hfirst]
    change (foldOperators Operator.isAdditive [] _ >>= Region.single) = _
    rw [hsecond]
    rfl

/-! ### What closes -/

/-- A computation that goes on after another one succeeds only if both do. -/
theorem exists_of_bind_eq_ok {ε α β : Type} {x : Except ε α} {f : α → Except ε β} {b : β}
    (h : x >>= f = .ok b) : ∃ a, x = .ok a ∧ f a = .ok b := by
  cases x with
  | error e => cases h
  | ok a => exact ⟨a, rfl, h⟩

/-- A computation that goes on after another one fails if one of them does. -/
theorem of_bind_eq_error {ε α β : Type} {x : Except ε α} {f : α → Except ε β} {e : ε}
    (h : x >>= f = .error e) : x = .error e ∨ ∃ a, x = .ok a ∧ f a = .error e := by
  cases x with
  | error e' =>
    cases h
    exact .inl rfl
  | ok a => exact .inr ⟨a, rfl, h⟩

/-- Operands and operators stand in turns, and the last one is an operand. -/
def alternates : (operandNext : Bool) → List Item → Bool
  | true, .operand _ :: items => alternates false items
  | false, .operator _ :: items => alternates true items
  | false, [] => true
  | _, _ => false

/-- Joining two operands keeps the turns. -/
theorem alternates_join (b : Bool) (xs ys : List Item) (op : Operator) (l r e : Expr) :
    alternates b (xs ++ .operand l :: .operator op :: .operand r :: ys) =
      alternates b (xs ++ .operand e :: ys) := by
  induction xs generalizing b with
  | nil => cases b <;> rfl
  | cons x xs ih => cases b <;> cases x <;> first | exact ih _ | rfl

/-- A pass keeps the turns. -/
theorem alternates_of_foldOperators {selects : Operator → Bool} {done items out : List Item}
    (h : foldOperators selects done items = .ok out) (b : Bool) :
    alternates b out = alternates b (done.reverse ++ items) := by
  fun_induction foldOperators selects done items with
  | case1 done =>
    cases h
    rw [List.append_nil]
  | case2 done e rest ih => simpa using ih h
  | case3 op _ l done r rest ih =>
    have hturns := ih h
    rw [List.reverse_cons, List.append_assoc, List.singleton_append,
      ← alternates_join _ _ _ op l r] at hturns
    simpa using hturns
  | case4 | case5 => cases h
  | case6 done op rest _ ih => simpa using ih h

/-- What closes to an expression stands in turns. -/
theorem alternates_of_close {items : List Item} {e : Expr} (h : Region.close items = .ok e) :
    alternates true items = true := by
  obtain ⟨first, hfirst, h⟩ := exists_of_bind_eq_ok h
  obtain ⟨second, hsecond, h⟩ := exists_of_bind_eq_ok h
  have hsingle : second.reverse = [.operand e] := by
    unfold Region.single at h
    split at h <;> cases h
    assumption
  have hturns : alternates true second = true := by
    rw [← List.reverse_reverse second, hsingle]
    rfl
  rw [alternates_of_foldOperators hsecond] at hturns
  rw [List.reverse_nil, List.nil_append, alternates_of_foldOperators hfirst] at hturns
  exact hturns

/-- Nothing is no region. -/
theorem ne_nil_of_close {items : List Item} {e : Expr} (h : Region.close items = .ok e) :
    items ≠ [] := by
  rintro rfl
  cases alternates_of_close h

/-! ### Derivations from items in turns -/

/-- An operand or an operator of a region, with its derivation. -/
inductive Piece where
  | operand (d : Derivation .factor)
  | operator (op : Operator)

/-- The item of a piece. -/
def Piece.item : Piece → Item
  | operand d => .operand d.toExpr
  | operator op => .operator op

/-- The tokens of a piece. -/
def Piece.tokens : Piece → List Token
  | operand d => d.tokens
  | operator op => [Token.ofOperator op]

/-- The derivation with an operand and an operator in front of it. -/
def Derivation.prepend : Derivation .expr → Derivation .factor → Operator → Derivation .expr
  | .expr (.term g rest) more, f, op =>
    if hop : op.isMultiplicative = true then .expr (.term f (.termNext op hop g rest)) more
    else .expr (.term f .termEnd) (.exprNext op (by simpa [Operator.isAdditive] using hop)
      (.term g rest) more)

theorem items_prepend (d : Derivation .expr) (f : Derivation .factor) (op : Operator) :
    (d.prepend f op).items = .operand f.toExpr :: .operator op :: d.items := by
  rcases d with ⟨⟨g, rest⟩, more⟩
  rw [Derivation.prepend]
  split <;> simp [Derivation.items]

theorem tokens_prepend (d : Derivation .expr) (f : Derivation .factor) (op : Operator) :
    (d.prepend f op).tokens = f.tokens ++ Token.ofOperator op :: d.tokens := by
  rcases d with ⟨⟨g, rest⟩, more⟩
  rw [Derivation.prepend]
  split <;> simp [Derivation.tokens]

/-- Pieces in turns are those of a derivation. -/
theorem exists_derivation_of_alternates (f : Derivation .factor) : (ps : List Piece) →
    alternates false (ps.map Piece.item) = true →
    ∃ d : Derivation .expr, d.items = .operand f.toExpr :: ps.map Piece.item ∧
      d.tokens = f.tokens ++ ps.flatMap Piece.tokens
  | [], _ => ⟨.expr (.term f .termEnd) .exprEnd, by simp [Derivation.items],
      by simp [Derivation.tokens]⟩
  | .operator op :: .operand g :: ps, h => by
    obtain ⟨d, hitems, htokens⟩ := exists_derivation_of_alternates g ps h
    refine ⟨d.prepend f op, ?_, ?_⟩
    · rw [items_prepend, hitems]
      rfl
    · rw [tokens_prepend, htokens]
      rfl
  | [.operator _], h => by cases h
  | .operator _ :: .operator _ :: _, h => by cases h
  | .operand _ :: _, h => by cases h

/-- A list of pieces that closes is that of a derivation of its expression. -/
theorem exists_derivation_of_close {ps : List Piece} {e : Expr}
    (h : Region.close (ps.map Piece.item) = .ok e) :
    ∃ d : Derivation .expr, d.tokens = ps.flatMap Piece.tokens ∧ d.toExpr = e := by
  have hturns := alternates_of_close h
  cases ps with
  | nil => cases hturns
  | cons p ps =>
    cases p with
    | operator op => cases hturns
    | operand f =>
      obtain ⟨d, hitems, htokens⟩ := exists_derivation_of_alternates f ps hturns
      refine ⟨d, htokens, ?_⟩
      have hclose := close_items d
      rw [hitems] at hclose
      exact Except.ok.inj (hclose.symm.trans h)

end FormulaSheet.Grammar
