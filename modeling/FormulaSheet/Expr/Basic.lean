import FormulaSheet.CellRef
import FormulaSheet.Operator

/-!
# Expressions

An expression is a number, a reference to a cell, a call of a named function or an operator
between two expressions. Every node carries its canonical text, which is what a formula cell shows
for editing. Parentheses leave no node: they only change the text of the node they stand around.

## Main definitions

* `Expr`: expressions with their texts.
* `Expr.ofCell`, `Expr.ofCall`, `Expr.ofBinary`: nodes with the text made from their parts.
* `Expr.parenthesized`: the same node with parentheses around its text.
* `Expr.sameNode`: equality that disregards the text of the two roots.
-/

namespace FormulaSheet

/-- An expression; the last field of a node is its canonical text. -/
inductive Expr where
  | constant (value : Float) (text : String)
  | ref (cell : CellRef) (text : String)
  | call (name : String) (args : List Expr) (text : String)
  | binary (op : Operator) (left right : Expr) (text : String)
deriving Inhabited

namespace Expr

/-! ### Text -/

/-- The canonical text of an expression. -/
def text : Expr → String
  | constant _ t => t
  | ref _ t => t
  | call _ _ t => t
  | binary _ _ _ t => t

/-- The same node with another text. -/
def withText (t : String) : Expr → Expr
  | constant value _ => constant value t
  | ref cell _ => ref cell t
  | call name args _ => call name args t
  | binary op left right _ => binary op left right t

/-- The texts with a comma and a space between any two. -/
def joinTexts : List Expr → String
  | [] => ""
  | [e] => e.text
  | e :: es => e.text ++ ", " ++ joinTexts es

/-- The reference to a cell. -/
def ofCell (cell : CellRef) : Expr :=
  ref cell cell.text

/-- The call of a function. -/
def ofCall (name : String) (args : List Expr) : Expr :=
  call name args (name ++ "(" ++ joinTexts args ++ ")")

/-- An operator between two expressions. -/
def ofBinary (op : Operator) (left right : Expr) : Expr :=
  binary op left right (left.text ++ op.symbol ++ right.text)

/-- The same node, written inside parentheses. -/
def parenthesized (e : Expr) : Expr :=
  e.withText ("(" ++ e.text ++ ")")

@[simp] theorem text_withText (t : String) (e : Expr) : (e.withText t).text = t := by
  cases e <;> rfl

@[simp] theorem withText_text (e : Expr) : e.withText e.text = e := by
  cases e <;> rfl

/-! ### Equality -/

mutual

/-- Equality of expressions is decidable: nodes compare by kind, parts and text, numbers by bits. -/
def decEq : (a b : Expr) → Decidable (a = b)
  | constant v s, constant w t =>
    if h : v = w ∧ s = t then isTrue (by rw [h.1, h.2]) else isFalse (by simpa using h)
  | ref c s, ref d t =>
    if h : c = d ∧ s = t then isTrue (by rw [h.1, h.2]) else isFalse (by simpa using h)
  | call n as s, call m bs t =>
    match decEqList as bs with
    | isTrue hab =>
      if h : n = m ∧ s = t then isTrue (by rw [h.1, h.2, hab])
      else isFalse (by simp only [call.injEq]; exact fun k => h ⟨k.1, k.2.2⟩)
    | isFalse hab => isFalse (by simp only [call.injEq]; exact fun k => hab k.2.1)
  | binary o l r s, binary p k q t =>
    match decEq l k, decEq r q with
    | isTrue hl, isTrue hr =>
      if h : o = p ∧ s = t then isTrue (by rw [h.1, h.2, hl, hr])
      else isFalse (by simp only [binary.injEq]; exact fun k => h ⟨k.1, k.2.2.2⟩)
    | isFalse hl, _ => isFalse (by simp only [binary.injEq]; exact fun k => hl k.2.1)
    | _, isFalse hr => isFalse (by simp only [binary.injEq]; exact fun k => hr k.2.2.1)
  | constant .., ref .. | constant .., call .. | constant .., binary .. => isFalse nofun
  | ref .., constant .. | ref .., call .. | ref .., binary .. => isFalse nofun
  | call .., constant .. | call .., ref .. | call .., binary .. => isFalse nofun
  | binary .., constant .. | binary .., ref .. | binary .., call .. => isFalse nofun

/-- Equality of argument lists is decidable. -/
def decEqList : (as bs : List Expr) → Decidable (as = bs)
  | [], [] => isTrue rfl
  | [], _ :: _ | _ :: _, [] => isFalse nofun
  | a :: as, b :: bs =>
    match decEq a b, decEqList as bs with
    | isTrue h, isTrue hs => isTrue (by rw [h, hs])
    | isFalse h, _ => isFalse (by simp only [List.cons.injEq]; exact fun k => h k.1)
    | _, isFalse hs => isFalse (by simp only [List.cons.injEq]; exact fun k => hs k.2)

end

instance : DecidableEq Expr := decEq

/-- The roots are equal except perhaps for their texts. -/
def sameNode (a b : Expr) : Bool :=
  a.withText b.text = b

theorem sameNode_iff (a b : Expr) : a.sameNode b = true ↔ ∃ t, b = a.withText t := by
  rw [sameNode, decide_eq_true_iff]
  refine ⟨fun h => ⟨b.text, h.symm⟩, ?_⟩
  rintro ⟨t, rfl⟩
  rw [text_withText]

/-- Parentheses keep the node. -/
theorem sameNode_parenthesized (e : Expr) : e.sameNode e.parenthesized = true :=
  (sameNode_iff _ _).2 ⟨_, rfl⟩

end Expr

end FormulaSheet
