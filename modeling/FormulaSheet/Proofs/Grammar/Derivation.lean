import FormulaSheet.Expr.Basic
import FormulaSheet.Proofs.Number.Exact
import FormulaSheet.Proofs.Token.Lexeme

/-!
# The grammar of formulas

Formulas are derived from `expr` in the grammar

* `expr := term (('+' | '-') term)*`
* `term := factor (('*' | '/') factor)*`
* `factor := number | ':' number ':' number | identifier '(' [expr (',' expr)*] ')' | '(' expr ')'`

where the two numbers of a reference are coordinates. A derivation is a tree with one node for each
production that is used. It yields the tokens it derives, and it gives them a meaning in every
algebra of the operations of formulas, both levels of operators being taken from left to right.

## Main definitions

* `Grammar.Coordinate`: the words that name a column or a row.
* `Grammar.Derivation`: the derivations from each symbol.
* `Derivation.tokens`: the tokens that a derivation derives.
* `Derivation.fold`: the meaning of a derivation in an algebra.
* `Derivation.toTree`, `Derivation.toExpr`: the tree without texts, and the expression with them.
-/

namespace FormulaSheet

/-! ### Trees without texts -/

/-- What an expression is made of, without its texts. -/
inductive Tree where
  | number (x : Float)
  | cell (c : CellRef)
  | call (name : String) (args : List Tree)
  | binary (op : Operator) (left right : Tree)

namespace Expr

mutual

/-- The tree of an expression. -/
def tree : Expr → Tree
  | constant x _ => .number x
  | ref c _ => .cell c
  | call name args _ => .call name (treesOfArgs args)
  | binary op l r _ => .binary op l.tree r.tree

/-- The trees of the arguments of a call. -/
def treesOfArgs : List Expr → List Tree
  | [] => []
  | e :: es => e.tree :: treesOfArgs es

end

theorem treesOfArgs_eq_map (es : List Expr) : treesOfArgs es = es.map tree := by
  induction es with
  | nil => rfl
  | cons e es ih => simp [treesOfArgs, ih]

@[simp] theorem tree_withText (t : String) (e : Expr) : (e.withText t).tree = e.tree := by
  cases e <;> rfl

end Expr

namespace Grammar

open Token

/-! ### Derivations -/

/-- A word that names a column or a row: as a number it is finite, whole and from `0` to
`2 ^ 64`. -/
structure Coordinate where
  word : Word
  value : Float
  number : Nat
  read?_word : Literal.read? word.chars = some value
  rational?_value : Binary64.rational? value = some (number : ℚ)
  number_le : number ≤ 2 ^ 64

/-- The column or row that is named; the largest number stands for the largest index. -/
def Coordinate.index (c : Coordinate) : UInt64 :=
  UInt64.ofNat (min c.number (2 ^ 64 - 1))

/-- The symbols of the grammar. Each repetition has one of its own. -/
inductive Symbol where
  | expr
  | exprRest
  | term
  | termRest
  | factor
  | arguments
  | argumentsRest

/-- The derivations from each symbol. -/
inductive Derivation : Symbol → Type where
  | expr (first : Derivation .term) (rest : Derivation .exprRest) : Derivation .expr
  | exprEnd : Derivation .exprRest
  | exprNext (op : Operator) (hop : op.isAdditive = true) (next : Derivation .term)
      (rest : Derivation .exprRest) : Derivation .exprRest
  | term (first : Derivation .factor) (rest : Derivation .termRest) : Derivation .term
  | termEnd : Derivation .termRest
  | termNext (op : Operator) (hop : op.isMultiplicative = true) (next : Derivation .factor)
      (rest : Derivation .termRest) : Derivation .termRest
  | number (word : Word) (value : Float) (hword : Literal.read? word.chars = some value) :
      Derivation .factor
  | reference (col row : Coordinate) : Derivation .factor
  | call (name : Word) (hname : Literal.read? name.chars = none) (args : Derivation .arguments) :
      Derivation .factor
  | group (inner : Derivation .expr) : Derivation .factor
  | noArguments : Derivation .arguments
  | arguments (first : Derivation .expr) (rest : Derivation .argumentsRest) : Derivation .arguments
  | argumentsEnd : Derivation .argumentsRest
  | argumentsNext (next : Derivation .expr) (rest : Derivation .argumentsRest) :
      Derivation .argumentsRest

namespace Derivation

/-- The tokens that a derivation derives. -/
def tokens : {σ : Symbol} → Derivation σ → List Token
  | _, expr first rest => first.tokens ++ rest.tokens
  | _, exprEnd => []
  | _, exprNext op _ next rest => ofOperator op :: (next.tokens ++ rest.tokens)
  | _, term first rest => first.tokens ++ rest.tokens
  | _, termEnd => []
  | _, termNext op _ next rest => ofOperator op :: (next.tokens ++ rest.tokens)
  | _, number word _ _ => [word.token]
  | _, reference col row => [colon, col.word.token, colon, row.word.token]
  | _, call name _ args => name.token :: openParen :: (args.tokens ++ [closeParen])
  | _, group inner => openParen :: (inner.tokens ++ [closeParen])
  | _, noArguments => []
  | _, arguments first rest => first.tokens ++ rest.tokens
  | _, argumentsEnd => []
  | _, argumentsNext next rest => comma :: (next.tokens ++ rest.tokens)

/-! ### Meanings -/

/-- The operations of formulas on some type. -/
structure Algebra (α : Type) where
  number : String → Float → α
  cell : CellRef → α
  call : String → List α → α
  binary : Operator → α → α → α
  group : α → α

/-- What a derivation from each symbol means: a repetition of operators continues what stands to the
left of it. -/
abbrev Meaning (α : Type) : Symbol → Type
  | .expr | .term | .factor => α
  | .exprRest | .termRest => α → α
  | .arguments | .argumentsRest => List α

/-- The meaning of a derivation in an algebra. -/
def fold (A : Algebra α) : {σ : Symbol} → Derivation σ → Meaning α σ
  | _, expr first rest => rest.fold A (first.fold A)
  | _, exprEnd => id
  | _, exprNext op _ next rest => fun left => rest.fold A (A.binary op left (next.fold A))
  | _, term first rest => rest.fold A (first.fold A)
  | _, termEnd => id
  | _, termNext op _ next rest => fun left => rest.fold A (A.binary op left (next.fold A))
  | _, number word value _ => A.number word.text value
  | _, reference col row => A.cell ⟨col.index, row.index⟩
  | _, call name _ args => A.call name.text (args.fold A)
  | _, group inner => A.group (inner.fold A)
  | _, noArguments => []
  | _, arguments first rest => first.fold A :: rest.fold A
  | _, argumentsEnd => []
  | _, argumentsNext next rest => next.fold A :: rest.fold A

/-- The operations on trees; a group is what stands inside it. -/
def treeAlgebra : Algebra Tree where
  number _ x := .number x
  cell := .cell
  call := .call
  binary := .binary
  group t := t

/-- The operations on expressions. -/
def exprAlgebra : Algebra Expr where
  number text x := .constant x text
  cell := .ofCell
  call := .ofCall
  binary := .ofBinary
  group := .parenthesized

/-- The tree of a derivation. -/
def toTree {σ : Symbol} (d : Derivation σ) : Meaning Tree σ :=
  d.fold treeAlgebra

/-- The expression of a derivation. -/
def toExpr {σ : Symbol} (d : Derivation σ) : Meaning Expr σ :=
  d.fold exprAlgebra

/-- Two meanings belong to the same expression, one with its texts and one without. -/
def SameTree : {σ : Symbol} → Meaning Expr σ → Meaning Tree σ → Prop
  | .expr, e, t | .term, e, t | .factor, e, t => e.tree = t
  | .exprRest, f, g | .termRest, f, g => ∀ e t, e.tree = t → (f e).tree = g t
  | .arguments, es, ts | .argumentsRest, es, ts => es.map Expr.tree = ts

/-- The tree of a derivation is that of its expression: a group leaves nothing but its text. -/
theorem sameTree {σ : Symbol} (d : Derivation σ) : SameTree d.toExpr d.toTree := by
  induction d with
  | expr _ _ first rest | term _ _ first rest => exact rest _ _ first
  | exprEnd | termEnd => exact fun _ _ h => h
  | exprNext op _ _ _ next rest | termNext op _ _ _ next rest =>
    rintro e t rfl
    exact rest _ _ (congrArg (Tree.binary op e.tree) next)
  | number | reference => rfl
  | call name _ _ args =>
    exact congrArg (Tree.call name.text) ((Expr.treesOfArgs_eq_map _).trans args)
  | group _ inner => exact (Expr.tree_withText _ _).trans inner
  | noArguments | argumentsEnd => rfl
  | arguments _ _ first rest | argumentsNext _ _ first rest => exact congrArg₂ List.cons first rest

end Derivation

end Grammar

end FormulaSheet
