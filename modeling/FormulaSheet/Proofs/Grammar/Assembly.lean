import FormulaSheet.Proofs.Grammar.CellNames

/-!
# Expressions put together by hand

An expression need not come from a formula: it can be put together from numbers, references, calls,
operators and parentheses in any order. Parentheses leave no node, they only change a text, so an
operator between sums has the text of another expression when the parentheses are left out. All the
same, an expression tells how it was put together, because the text of a node is longer than its
parts by just the parentheses around it.

## Main definitions

* `Assembly`: the ways to put an expression together.
* `Assembly.toExpr`: the expression that is put together.
* `Assembly.respectsPrecedence`: no operand needs parentheses that it does not have.

## Main results

* `Assembly.toExpr_injective`: an expression is put together in one way only.
-/

namespace FormulaSheet

open Token Grammar

/-- A way to put an expression together. The text of a number is a word that reads as that number,
the name of a call is a word that is no number, and a reference has indices that a formula can
name. -/
inductive Assembly where
  | constant (word : Word) (value : Float) (hword : Literal.read? word.chars = some value)
  | cell (c : CellRef) (hcol : IsKept c.col.toNat) (hrow : IsKept c.row.toNat)
  | call (name : Word) (hname : Literal.read? name.chars = none) (args : List Assembly)
  | binary (op : Operator) (left right : Assembly)
  | parenthesized (inner : Assembly)

/-- Whether an operator keeps its operands without parentheses, where `left` and `right` are the
operators of the operands that have no parentheses. A multiplicative operator keeps a multiplicative
one to its left and none to its right, and an additive operator keeps all but an additive one to its
right. -/
def Operator.admits (op : Operator) (left right : Option Operator) : Bool :=
  if op.isMultiplicative then left.all isMultiplicative && right.isNone
  else right.all isMultiplicative

/-- No word begins with a separator. -/
theorem Token.Word.isSeparator_of_append_eq (w : Word) {cs ds : List Char} {c : Char}
    (h : w.chars ++ cs = c :: ds) : isSeparator c = false := by
  obtain ⟨b, bs, hchars⟩ := List.exists_cons_of_ne_nil w.ne_nil
  rw [hchars, List.cons_append, List.cons.injEq] at h
  rw [← h.1]
  exact w.not_isSeparator b (by simp [hchars])

/-- Parentheses around two nodes are the same only around the same node. -/
theorem Expr.parenthesized_injective : Function.Injective Expr.parenthesized := by
  intro e f h
  have htext : e.text = f.text := by
    have htexts := congrArg (fun e => e.text.toList) h
    rw [← String.toList_inj]
    simpa [Expr.parenthesized] using htexts
  calc e = e.parenthesized.withText e.text := by cases e <;> rfl
    _ = f.parenthesized.withText f.text := by rw [h, htext]
    _ = f := by cases f <;> rfl

namespace Assembly

/-! ### The expression -/

mutual

/-- The expression that is put together. -/
def toExpr : Assembly → Expr
  | constant word value _ => .constant value word.text
  | cell c _ _ => .ofCell c
  | call name _ args => .ofCall name.text (toExprs args)
  | binary op left right => .ofBinary op left.toExpr right.toExpr
  | parenthesized inner => inner.toExpr.parenthesized

/-- The expressions of the arguments of a call. -/
def toExprs : List Assembly → List Expr
  | [] => []
  | a :: as => a.toExpr :: toExprs as

end

/-! ### Precedence -/

/-- The operator of an assembly that is an operator without parentheses around it. -/
def operator? : Assembly → Option Operator
  | binary op _ _ => some op
  | _ => none

mutual

/-- Every operator keeps its operands without more parentheses than they have. -/
def respectsPrecedence : Assembly → Bool
  | constant .. | cell .. => true
  | call _ _ args => allRespectPrecedence args
  | binary op left right =>
    op.admits left.operator? right.operator? && left.respectsPrecedence && right.respectsPrecedence
  | parenthesized inner => inner.respectsPrecedence

/-- Every operator in the arguments of a call does so. -/
def allRespectPrecedence : List Assembly → Bool
  | [] => true
  | a :: as => a.respectsPrecedence && allRespectPrecedence as

end

/-- A sum or difference needs parentheses to be multiplied. -/
example (a b c : Assembly) : (binary .mul (binary .add a b) c).respectsPrecedence = false :=
  rfl

/-! ### How an expression was put together -/

/-- The text of an operator node is at least as long as those of its parts. -/
theorem length_text_le (a : Assembly) {op : Operator} {l r : Expr} {t : String}
    (h : a.toExpr = .binary op l r t) :
    l.text.length + op.symbol.length + r.text.length ≤ t.length := by
  match a with
  | binary .. =>
    cases h
    simp [String.length_append]
  | parenthesized inner =>
    rw [toExpr, Expr.parenthesized] at h
    cases hinner : inner.toExpr with
    | binary op' l' r' t' =>
      rw [hinner] at h
      cases h
      have hle := length_text_le inner hinner
      change _ ≤ ("(" ++ t' ++ ")").length
      rw [String.length_append, String.length_append]
      omega
    | constant | ref | call =>
      rw [hinner] at h
      cases h
  | constant .. | cell .. | call .. => cases h

/-- Only parentheses write parentheses around the text of a node. -/
theorem exists_eq_parenthesized (a b : Assembly) (h : a.toExpr = b.toExpr.parenthesized) :
    ∃ inner, a = parenthesized inner := by
  have htext : a.toExpr.text.toList = '(' :: (b.toExpr.text.toList ++ [')']) := by
    rw [h, Expr.parenthesized, Expr.text_withText]
    simp
  cases a with
  | parenthesized inner => exact ⟨inner, rfl⟩
  | constant word value hword =>
    have hchars : word.chars ++ [] = '(' :: (b.toExpr.text.toList ++ [')']) := by
      rw [List.append_nil, ← word.toList_text]
      exact htext
    cases word.isSeparator_of_append_eq hchars
  | cell c hcol hrow =>
    have hcolon : (CellRef.text c).toList.head? = some ':' := by simp [CellRef.text]
    rw [toExpr, Expr.ofCell, Expr.text] at htext
    rw [htext] at hcolon
    cases hcolon
  | call name hname args =>
    have hchars : name.chars ++ '(' :: ((Expr.joinTexts (toExprs args)).toList ++ [')']) =
        '(' :: (b.toExpr.text.toList ++ [')']) := by
      rw [← htext, toExpr, Expr.ofCall, Expr.text]
      simp
    cases name.isSeparator_of_append_eq hchars
  | binary op left right =>
    -- a node in parentheses has a longer text than its parts
    cases hb : b.toExpr with
    | binary op' l r t =>
      rw [hb] at h
      obtain ⟨rfl, rfl, rfl, htexts⟩ := Expr.binary.inj h
      have hle := length_text_le b hb
      have hlength := congrArg String.length htexts
      change _ = ("(" ++ t ++ ")").length at hlength
      simp only [String.length_append] at hlength
      have hopen : "(".length = 1 := rfl
      omega
    | constant | ref | call =>
      rw [hb] at h
      cases h

mutual

/-- An expression is put together in one way only. -/
theorem toExpr_injective : (a b : Assembly) → a.toExpr = b.toExpr → a = b
  | constant w x _, constant v y _, h => by
    obtain ⟨rfl, htext⟩ := Expr.constant.inj h
    obtain rfl := Word.eq_of_text_eq htext
    rfl
  | cell .., cell .., h => by
    obtain ⟨rfl, -⟩ := Expr.ref.inj h
    rfl
  | call .., call .., h => by
    obtain ⟨hname, hargs, -⟩ := Expr.call.inj h
    obtain rfl := Word.eq_of_text_eq hname
    obtain rfl := toExprs_injective _ _ hargs
    rfl
  | binary .., binary .., h => by
    obtain ⟨rfl, hleft, hright, -⟩ := Expr.binary.inj h
    obtain rfl := toExpr_injective _ _ hleft
    obtain rfl := toExpr_injective _ _ hright
    rfl
  | parenthesized a, b, h => by
    obtain ⟨inner, rfl⟩ := exists_eq_parenthesized b a h.symm
    rw [toExpr_injective a inner (Expr.parenthesized_injective h)]
  | constant .., parenthesized b, h | cell .., parenthesized b, h | call .., parenthesized b, h
  | binary .., parenthesized b, h => by
    obtain ⟨_, heq⟩ := exists_eq_parenthesized _ b h
    cases heq

/-- So are arguments. -/
theorem toExprs_injective : (as bs : List Assembly) → toExprs as = toExprs bs → as = bs
  | [], [], _ => rfl
  | a :: as, b :: bs, h => by
    obtain ⟨ha, has⟩ := List.cons.inj h
    rw [toExpr_injective a b ha, toExprs_injective as bs has]
  | [], _ :: _, h | _ :: _, [], h => by cases h

end

end Assembly

end FormulaSheet
