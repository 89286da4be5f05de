import FormulaSheet.Expr.Region
import FormulaSheet.Number.Binary64
import FormulaSheet.Token

/-!
# From tokens to expressions

The tokens of a formula are read once, from left to right. Numbers, references and operators are
items of the innermost open region. An opening parenthesis sets the items read so far aside and
opens a region of its own; the token that closes it turns its items into one expression, which
becomes an operand of the region around it. A reference `:col:row` and the name of a call take
several tokens, so the reader also keeps which token has to come next.

A formula is a region that ends with its last token, so it is read with no kinds of tokens that end
it. Given such kinds, `Reader.read` reads a region from the middle of a formula and stops in front
of the token that ends it. No formula is read so: the regions inside its brackets are read on the
way.
But they come out as they would be read on their own, in front of a comma or a closing parenthesis,
which is `Reader.read_inside`.

## Main definitions

* `Reader`: what is known after some tokens.
* `Reader.step`: one token more.
* `Reader.read`: the expression of a region, and the tokens from its end on.
* `Expr.ofTokens`, `Expr.parse`: the expression of a whole formula.
-/

namespace FormulaSheet

/-- An open bracket, with what was set aside when it opened. Items stand in reverse order. -/
inductive Bracket where
  /-- A parenthesis around an expression. -/
  | group (outer : List Item)
  /-- The parenthesis of a call, with the arguments that are complete, the last one first. -/
  | call (name : String) (args : List Expr) (outer : List Item)

/-- The token that has to come next. -/
inductive Next where
  /-- The next item of the region, or the token that ends it. -/
  | item
  /-- The column of a reference. -/
  | column
  /-- The colon between the column and the row. -/
  | divider (column : String)
  /-- The row of a reference. -/
  | row (column : String)
  /-- The opening parenthesis of a call. -/
  | opening (name : String)
deriving DecidableEq

/-- What is known after some tokens: the items of the innermost open region in reverse order, the
open brackets from the innermost to the outermost, and what has to come next. -/
structure Reader where
  items : List Item
  brackets : List Bracket
  next : Next

namespace Reader

/-- Nothing has been read. -/
def start : Reader :=
  ⟨[], [], .item⟩

/-- The number that a token of kind number is written as. -/
def number (text : String) : Except ParseError Float :=
  match Literal.read? text.toList with
  | some x => .ok x
  | none => .error (.notANumber text)

/-- The column or row that a number names: a natural number up to `2 ^ 64`, of which the largest
stands for `2 ^ 64 - 1`. -/
def coordinate (text : String) : Except ParseError UInt64 := do
  let x ← number text
  match Binary64.natural? x with
  | some n =>
    if n ≤ UInt64.size then .ok (UInt64.ofNat (min n (UInt64.size - 1)))
    else .error (.notACoordinate text)
  | none => .error (.notACoordinate text)

/-- The reader with one item more in the innermost region. -/
def push (r : Reader) (i : Item) : Reader :=
  { r with items := i :: r.items, next := .item }

/-- The error for a token that stands where something else has to. -/
def wrong (what : Wanted) (t : Token) : Except ParseError Reader :=
  .error (.expected what (some t.text))

/-- A comma: it ends an argument of the innermost bracket if that is a call. -/
def comma (r : Reader) (t : Token) : Except ParseError Reader :=
  match r.brackets with
  | .call name args outer :: brackets => do
    let e ← Region.close r.items.reverse
    .ok ⟨[], .call name (e :: args) outer :: brackets, .item⟩
  | _ => .error (.unexpected t.text)

/-- A closing parenthesis: it ends the innermost bracket. A call that closes right after it opened
has no argument. -/
def closing (r : Reader) (t : Token) : Except ParseError Reader :=
  match r.brackets with
  | .group outer :: brackets => do
    let e ← Region.close r.items.reverse
    .ok ⟨.operand e.parenthesized :: outer, brackets, .item⟩
  | .call name args outer :: brackets =>
    if r.items.isEmpty && args.isEmpty then
      .ok ⟨.operand (.ofCall name []) :: outer, brackets, .item⟩
    else do
      let e ← Region.close r.items.reverse
      .ok ⟨.operand (.ofCall name (e :: args).reverse) :: outer, brackets, .item⟩
  | [] => .error (.unexpected t.text)

/-- A token where an item of the region may stand. -/
def item (r : Reader) (t : Token) : Except ParseError Reader :=
  match t.kind with
  | .number => do
    let x ← number t.text
    .ok (r.push (.operand (.constant x t.text)))
  | .colon => .ok { r with next := .column }
  | .identifier => .ok { r with next := .opening t.text }
  | .openParen => .ok ⟨[], .group r.items :: r.brackets, .item⟩
  | .operator =>
    match Operator.ofSymbol? t.text with
    | some op => .ok (r.push (.operator op))
    | none => .error (.unknownOperator t.text)
  | .comma => r.comma t
  | .closeParen => r.closing t

/-- What is known after one token more. -/
def step (r : Reader) (t : Token) : Except ParseError Reader :=
  match r.next with
  | .item => r.item t
  | .column =>
    if t.kind = .number then .ok { r with next := .divider t.text } else wrong .column t
  | .divider column =>
    if t.kind = .colon then .ok { r with next := .row column } else wrong .divider t
  | .row column =>
    if t.kind = .number then do
      let col ← coordinate column
      let row ← coordinate t.text
      .ok (r.push (.operand (.ofCell ⟨col, row⟩)))
    else wrong .row t
  | .opening name =>
    if t.kind = .openParen then .ok ⟨[], .call name [] r.items :: r.brackets, .item⟩
    else wrong (.openParenAfter name) t

/-- The expression of a formula that ends here. -/
def finish (r : Reader) : Except ParseError Expr :=
  match r.next with
  | .item => do
    let e ← Region.close r.items.reverse
    match r.brackets with
    | [] => .ok e
    | .group _ :: _ => .error (.expected .closeParen none)
    | .call name _ _ :: _ => .error (.unclosedCall name)
  | .column => .error (.expected .column none)
  | .divider _ => .error (.expected .divider none)
  | .row _ => .error (.expected .row none)
  | .opening name => .error (.expected (.openParenAfter name) none)

/-- A token of one of the kinds `ends` ends the outermost region. -/
def isAtEnd (ends : List TokenKind) (r : Reader) (t : Token) : Bool :=
  r.brackets.isEmpty && r.next = .item && ends.contains t.kind

/-- The expression of a region that ends before the first token of the kinds `ends` outside all
brackets, or else with the last token; and the tokens that are left. After a fault these begin with
the token at which it was found, unless that has been taken. -/
def read (ends : List TokenKind) :
    Reader → List Token → Except ParseError Expr × List Token
  | r, [] => (r.finish, [])
  | r, t :: ts =>
    if r.isAtEnd ends t then (r.finish, t :: ts)
    else
      match r.step t with
      | .ok r => read ends r ts
      | .error e => (.error e, if e.takesToken then ts else t :: ts)

end Reader

namespace Expr

/-- The expression that a list of tokens forms as a whole. -/
def ofTokens (ts : List Token) : Except ParseError Expr :=
  match Reader.read [] Reader.start ts with
  | (.ok e, []) => .ok e
  | (.ok _, t :: _) => .error (.unexpected t.text)
  | (.error e, _) => .error e

/-- The expression of a formula. -/
def parse (s : String) : Except ParseError Expr :=
  ofTokens (Token.ofText s)

end Expr

end FormulaSheet
