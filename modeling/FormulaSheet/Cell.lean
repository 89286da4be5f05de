import FormulaSheet.Expr.Parsing
import FormulaSheet.Value

/-!
# Cells

A cell is empty or holds a number, a text or a formula. A formula remembers the last value
computed for it together with the version of the sheet at which that happened; the value counts
only as long as the sheet has the same version.

## Main definitions

* `Memo`, `Formula`, `Cell`: what a cell holds.
* `Cell.ofInput`: the cell that a user's input makes.
* `Cell.inputText`: the input that makes a cell.
* `Cell.remember`, `Cell.forget`: a cell with or without a remembered value.
-/

namespace FormulaSheet

/-- A value and the version of the sheet at which it was computed. -/
structure Memo where
  value : Value
  version : Nat
deriving DecidableEq

/-- A formula and the last value computed for it. -/
structure Formula where
  expr : Expr
  memo : Option Memo
deriving DecidableEq

/-- The value remembered at `version`. -/
def Formula.cached? (f : Formula) (version : Nat) : Option Value :=
  match f.memo with
  | some m => if m.version = version then some m.value else none
  | none => none

/-- What a cell holds. -/
inductive Cell where
  | empty
  | number (x : Float)
  | text (s : String)
  | formula (f : Formula)
deriving DecidableEq

namespace Cell

/-! ### Input -/

/-- The cell of a formula; nothing is remembered for it yet. -/
def ofExpr (e : Expr) : Cell :=
  formula ⟨e, none⟩

/-- The cell of the formula with the given text. -/
def ofFormula (s : String) : Except ParseError Cell :=
  (Expr.parse s).map ofExpr

/-- The characters between two quotation marks at the ends. -/
def unquote? (cs : List Char) : Option (List Char) :=
  match cs with
  | '"' :: r => if r.getLast? = some '"' then some r.dropLast else none
  | _ => none

/-- The cell that characters without a leading equals sign make: a text where they are quoted, a
number where they are a literal, else a text. -/
def ofPlain (cs : List Char) : Cell :=
  match unquote? cs with
  | some inner => text (String.ofList inner)
  | none =>
    match Literal.read? cs with
    | some x => number x
    | none => text (String.ofList cs)

/-- The cell that an input makes. Blank characters around it do not count; an equals sign in front
introduces a formula. -/
def ofInput (s : String) : Except ParseError Cell :=
  match Text.trimChars s.toList with
  | [] => .ok empty
  | '=' :: r => ofFormula (String.ofList r)
  | cs => .ok (ofPlain cs)

/-- The input shown when a cell is edited. -/
def inputText : Cell → String
  | empty => ""
  | number x => Number.inputText x
  | text s => s
  | formula f => "=" ++ f.expr.text

/-! ### Contents -/

/-- Whether a cell is empty. -/
def isEmpty : Cell → Bool
  | empty => true
  | _ => false

/-- Whether a cell holds a formula. -/
def isFormula : Cell → Bool
  | formula _ => true
  | _ => false

/-- The cell with a value remembered for its formula. -/
def remember (v : Value) (version : Nat) : Cell → Cell
  | formula f => formula { f with memo := some ⟨v, version⟩ }
  | c => c

/-- The cell with nothing remembered. -/
def forget : Cell → Cell
  | formula f => formula { f with memo := none }
  | c => c

end Cell

end FormulaSheet
