import FormulaSheet.Toml.Table

/-!
# Strings of TOML

A string stands between quotation marks, where a backslash introduces an escape, or between
apostrophes, where every character stands for itself. Three marks in place of one allow the string
to run over several lines; a line break right after them does not count. Control characters other
than the tab are not allowed.

Each reader takes the characters after the opening mark and gives the string with what follows the
closing mark, or nothing where the string is not well formed.

## Main definitions

* `Toml.basicString?`, `Toml.literalString?`: strings of one line.
* `Toml.basicLines?`, `Toml.literalLines?`: strings of several lines.
-/

namespace FormulaSheet.Toml

/-- The tab and all characters that are no control characters may stand in strings and comments. -/
def isPlainChar (c : Char) : Bool :=
  c = '\t' || (0x20 ≤ c.toNat && c.toNat ≠ 0x7F)

/-- The character that a backslash and a letter stand for. -/
def shortEscape? : Char → Option Char
  | 'b' => some '\x08'
  | 't' => some '\t'
  | 'n' => some '\n'
  | 'f' => some '\x0c'
  | 'r' => some '\r'
  | '"' => some '"'
  | '\\' => some '\\'
  | _ => none

/-- The value of a hexadecimal digit. -/
def hexValue? (c : Char) : Option Nat :=
  if c.isDigit then some (c.toNat - '0'.toNat)
  else if 'a' ≤ c.toLower && c.toLower ≤ 'f' then some (c.toLower.toNat - 'a'.toNat + 10)
  else none

/-- The character whose code point the digits denote. -/
def codePoint? (ds : List Char) : Option Char := do
  let values ← ds.mapM hexValue?
  let n := values.foldl (fun n d => 16 * n + d) 0
  if n.isValidChar then some (Char.ofNat n) else none

/-- A character in front of the string that a reader gives. -/
def prepend (c : Char) (r : Option (List Char × List Char)) : Option (List Char × List Char) :=
  r.map fun (s, rest) => (c :: s, rest)

/-! ### One line -/

/-- A string up to its closing quotation mark. -/
def basicString? : List Char → Option (List Char × List Char)
  | [] => none
  | '"' :: r => some ([], r)
  | '\\' :: 'u' :: a :: b :: c :: d :: r =>
    codePoint? [a, b, c, d] >>= fun x => prepend x (basicString? r)
  | '\\' :: 'U' :: a :: b :: c :: d :: e :: f :: g :: h :: r =>
    codePoint? [a, b, c, d, e, f, g, h] >>= fun x => prepend x (basicString? r)
  | '\\' :: c :: r => shortEscape? c >>= fun x => prepend x (basicString? r)
  | c :: r => if isPlainChar c && c ≠ '\\' then prepend c (basicString? r) else none

/-- A string up to its closing apostrophe. -/
def literalString? : List Char → Option (List Char × List Char)
  | [] => none
  | '\'' :: r => some ([], r)
  | c :: r => if isPlainChar c then prepend c (literalString? r) else none

/-! ### Several lines -/

/-- Whether only blanks stand before the next line break. -/
def endsLine : List Char → Bool
  | '\n' :: _ | '\r' :: '\n' :: _ => true
  | ' ' :: r | '\t' :: r => endsLine r
  | _ => false

/-- The marks among the five that may end a string of several lines which belong to the string. The
three closing marks have been taken; up to two more come before them. -/
def closeLines (mark : Char) : List Char → List Char × List Char
  | c :: d :: r =>
    if c = mark ∧ d = mark then ([mark, mark], r)
    else if c = mark then ([mark], d :: r)
    else ([], c :: d :: r)
  | [c] => if c = mark then ([mark], []) else ([], [c])
  | [] => ([], [])

/-- A string up to its three closing quotation marks. While `folding`, blanks and line breaks after
a backslash at the end of a line are left out. -/
def basicLines? (folding : Bool) : List Char → Option (List Char × List Char)
  | [] => none
  | '"' :: '"' :: '"' :: r => some (closeLines '"' r)
  | '\r' :: '\n' :: r =>
    if folding then basicLines? true r else prepend '\n' (basicLines? false r)
  | '\n' :: r => if folding then basicLines? true r else prepend '\n' (basicLines? false r)
  | '\\' :: 'u' :: a :: b :: c :: d :: r =>
    codePoint? [a, b, c, d] >>= fun x => prepend x (basicLines? false r)
  | '\\' :: 'U' :: a :: b :: c :: d :: e :: f :: g :: h :: r =>
    codePoint? [a, b, c, d, e, f, g, h] >>= fun x => prepend x (basicLines? false r)
  | '\\' :: c :: r =>
    match shortEscape? c with
    | some x => prepend x (basicLines? false r)
    | none => if endsLine (c :: r) then basicLines? true (c :: r) else none
  | c :: r =>
    if folding && (c = ' ' || c = '\t') then basicLines? true r
    else if isPlainChar c && c ≠ '\\' then prepend c (basicLines? false r)
    else none

/-- A string up to its three closing apostrophes. -/
def literalLines? : List Char → Option (List Char × List Char)
  | [] => none
  | '\'' :: '\'' :: '\'' :: r => some (closeLines '\'' r)
  | '\r' :: '\n' :: r => prepend '\n' (literalLines? r)
  | c :: r => if isPlainChar c || c = '\n' then prepend c (literalLines? r) else none

/-- The characters without a line break in front. -/
def dropLineBreak : List Char → List Char
  | '\n' :: r | '\r' :: '\n' :: r => r
  | r => r

end FormulaSheet.Toml
