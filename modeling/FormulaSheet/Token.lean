import FormulaSheet.Number.Literal
import FormulaSheet.Text.Blank

/-!
# Tokens of a formula

A formula is a list of tokens. Marks are the delimiters `,`, `:`, `(`, `)` and the operators `+`,
`-`, `*`, `/`, each a token of its own. Blank characters only separate. All other characters
gather into words, and a word is a number when it is a number literal and an identifier otherwise.
Since `+` and `-` are marks, a word holds no sign.

## Main definitions

* `Token`: a kind and the characters it was written with.
* `Token.ofText`: the tokens of a formula; every text has some.
-/

namespace FormulaSheet

/-- The kinds of tokens. -/
inductive TokenKind where
  | identifier
  | number
  | operator
  | comma
  | colon
  | openParen
  | closeParen
deriving DecidableEq, Repr

/-- A token: its kind and the text it was written with. -/
structure Token where
  kind : TokenKind
  text : String
deriving DecidableEq, Repr

namespace Token

/-- The kind of a mark, a character that is a token by itself. -/
def markKind? : Char → Option TokenKind
  | ',' => some .comma
  | ':' => some .colon
  | '(' => some .openParen
  | ')' => some .closeParen
  | '+' | '-' | '*' | '/' => some .operator
  | _ => none

/-- Marks and blank characters end a word. -/
def isSeparator (c : Char) : Bool :=
  (markKind? c).isSome || Text.isBlank c

/-- The token of a word: a number if the word is a literal, else an identifier. -/
def ofWord (w : List Char) : Token :=
  ⟨if (Literal.read? w).isSome then .number else .identifier, String.ofList w⟩

/-- The tokens of a word that may be empty. -/
def ofPending (w : List Char) : List Token :=
  if w = [] then [] else [ofWord w]

/-- The tokens of `cs` after the characters `pending` of an unfinished word, the last one first. -/
def scan (pending : List Char) : List Char → List Token
  | [] => ofPending pending.reverse
  | c :: cs =>
    match markKind? c with
    | some kind => ofPending pending.reverse ++ ⟨kind, String.singleton c⟩ :: scan [] cs
    | none =>
      if Text.isBlank c then ofPending pending.reverse ++ scan [] cs
      else scan (c :: pending) cs

/-- The tokens of a formula, in order. -/
def ofText (s : String) : List Token :=
  scan [] s.toList

end Token

end FormulaSheet
