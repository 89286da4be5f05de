import FormulaSheet.Toml.Quoted
import FormulaSheet.Toml.Scalar

/-!
# Documents of TOML

A document is read line by line: blank lines, comments, headers of tables and keys with values.
Only arrays and strings in three marks run over several lines. Reading keeps the characters that
are left as its state. Arrays and tables in braces nest to a limited depth, by which the reader of
values recurs; the loops over the parts of a value and over the lines are bounded by the length of
the text.

## Main definitions

* `Toml.readValue`: a value.
* `Toml.parse`: the fields of a document.
-/

namespace FormulaSheet.Toml

/-- Reading from the characters that are left. -/
abbrev Read := StateT (List Char) (Except Fault)

namespace Read

/-! ### Small parts -/

/-- The text makes no sense here. -/
def fail : Read α := do
  throw (.malformed (← get).length)

/-- Whether the next character is `c`. -/
def sees (c : Char) : Read Bool := do
  return (← get).head? = some c

/-- Takes the character `c`. -/
def expect (c : Char) : Read Unit := do
  match ← get with
  | d :: r => if d = c then set r else fail
  | [] => fail

/-- Takes the character `c` if it is next, and tells whether it was. -/
def take? (c : Char) : Read Bool := do
  let seen ← sees c
  if seen then modify List.tail
  return seen

/-- Takes the characters that satisfy `p`. -/
def takeWhile (p : Char → Bool) : Read (List Char) :=
  modifyGet fun cs => (cs.takeWhile p, cs.dropWhile p)

/-- Takes what a reader of strings gives, if it gives anything. -/
def takeString (read? : List Char → Option (List Char × List Char)) : Read String := do
  match read? (← get) with
  | some (s, r) =>
    set r
    return String.ofList s
  | none => fail

/-- Whether a character is a space or a tab. -/
def isBlank (c : Char) : Bool :=
  c = ' ' || c = '\t'

/-- Takes spaces and tabs. -/
def blanks : Read Unit := do
  let _ ← takeWhile isBlank

/-- Takes a comment, if one is next. -/
def comment : Read Unit := do
  if ← sees '#' then
    let _ ← takeWhile isPlainChar

/-- Takes a line break. -/
def lineBreak : Read Unit := do
  let _ ← take? '\r'
  expect '\n'

/-- Takes the rest of a line, which may hold a comment. -/
def lineEnd : Read Unit := do
  blanks
  comment
  unless (← get).isEmpty do lineBreak

/-- Takes blanks, comments and line breaks; `n` bounds the number of lines. -/
def space : (n : Nat) → Read Unit
  | 0 => blanks
  | n + 1 => do
    blanks
    comment
    match ← get with
    | '\n' :: _ | '\r' :: _ =>
      lineBreak
      space n
    | _ => return

/-- The items of a list up to the closing mark `close`, separated by commas. An item is taken by
`item` together with the blanks around it; `n` bounds their number. -/
def items (item : Read α) (close : Char) : (n : Nat) → Read (List α)
  | 0 => fail
  | n + 1 => do
    let a ← item
    if ← take? ',' then return a :: (← items item close n)
    expect close
    return [a]

/-! ### Keys -/

/-- Whether a character may stand in a key without marks. -/
def isKeyChar (c : Char) : Bool :=
  c.isAlphanum || c = '_' || c = '-'

/-- A part of a key. -/
def keyPart : Read String := do
  if ← take? '"' then takeString basicString?
  else if ← take? '\'' then takeString literalString?
  else
    let cs ← takeWhile isKeyChar
    if cs = [] then fail
    return String.ofList cs

/-- The parts of a key, separated by points; `n` bounds their number. -/
def keyParts : (n : Nat) → Read (List String)
  | 0 => throw .tooDeep
  | n + 1 => do
    blanks
    let part ← keyPart
    blanks
    if ← take? '.' then return part :: (← keyParts n)
    return [part]

/-- How many parts a key may have, and how deep values may nest. -/
def depthLimit : Nat := 79

/-- A key as the path to a table and the name in it. -/
def key : Read (List String × String) := do
  match (← keyParts depthLimit).reverse with
  | last :: before => return (before.reverse, last)
  | [] => fail

/-! ### Values -/

/-- A string, with the opening mark still to come. -/
def string : Read String := do
  match ← get with
  | '"' :: '"' :: '"' :: r =>
    set (dropLineBreak r)
    takeString (basicLines? false)
  | '\'' :: '\'' :: '\'' :: r =>
    set (dropLineBreak r)
    takeString literalLines?
  | '"' :: r =>
    set r
    takeString basicString?
  | '\'' :: r =>
    set r
    takeString literalString?
  | _ => fail

/-- A number, a boolean, a date or a time. A date and a space take a time with them. -/
def scalar : Read Value := do
  let word ← takeWhile isScalarChar
  let word ← match ← get with
    | ' ' :: c :: r =>
      if isDate word && c.isDigit then
        set (c :: r)
        let time ← takeWhile isScalarChar
        pure (word ++ ' ' :: time)
      else pure word
    | _ => pure word
  match scalar? word with
  | some v => return v
  | none => fail

/-- An array after its opening bracket; a comma may follow the last item. -/
def array (value : Read Value) : (n : Nat) → Read (List Value)
  | 0 => fail
  | n + 1 => do
    space (← get).length
    if ← take? ']' then return []
    let v ← value
    space (← get).length
    if ← take? ',' then return v :: (← array value n)
    expect ']'
    return [v]

/-- A key and a value in braces. -/
def pair (value : Read Value) : Read (List String × String × Value) := do
  let (path, name) ← key
  expect '='
  blanks
  let v ← value
  blanks
  return (path, name, v)

/-- A table after its opening brace. -/
def braces (value : Read Value) : Read Fields := do
  blanks
  if ← take? '\x7d' then return []
  let pairs ← items (pair value) '\x7d' (← get).length
  match ofPairs pairs with
  | .ok fields => return fields
  | .error e => throw e

/-- A value in which arrays and tables nest at most `depth` deep. -/
def value : (depth : Nat) → Read Value
  | 0 => do
    match ← get with
    | '"' :: _ | '\'' :: _ => return .string (← string)
    | '[' :: _ | '\x7b' :: _ => throw .tooDeep
    | _ => scalar
  | depth + 1 => do
    match ← get with
    | '"' :: _ | '\'' :: _ => return .string (← string)
    | '[' :: r =>
      set r
      return .array (← array (value depth) r.length)
    | '\x7b' :: r =>
      set r
      return .table .inline (← braces (value depth))
    | _ => scalar

/-! ### Lines -/

/-- What has been read: the fields of the document and the table that the last header named. -/
structure Progress where
  fields : Fields
  current : List String

/-- The result of a change to the fields. -/
def changed (current : List String) (r : Except Fault Fields) : Read Progress :=
  match r with
  | .ok fields => return ⟨fields, current⟩
  | .error e => throw e

/-- The header of a table, or of an element of an array of tables, after its first bracket. -/
def header (p : Progress) : Read Progress := do
  let isElement ← take? '['
  let (path, name) ← key
  expect ']'
  if isElement then expect ']'
  lineEnd
  let change := if isElement then openElement name else openTable name
  changed (path ++ [name]) (changeAt change path p.fields)

/-- A key with its value in the current table. -/
def assignment (p : Progress) : Read Progress := do
  let (path, name) ← key
  expect '='
  blanks
  let v ← value depthLimit
  lineEnd
  changed p.current (changeAt (addAt name v path) p.current p.fields)

/-- The lines of a document, at most `n`. -/
def lines (p : Progress) : (n : Nat) → Read Fields
  | 0 => fail
  | n + 1 => do
    blanks
    match ← get with
    | [] => return p.fields
    | '#' :: _ | '\n' :: _ | '\r' :: _ =>
      lineEnd
      lines p n
    | '[' :: r =>
      set r
      lines (← header p) n
    | _ => lines (← assignment p) n

end Read

/-- The fields of a document. A byte order mark in front does not count. -/
def parse (s : String) : Except Fault Fields :=
  let cs := match s.toList with
    | '\uFEFF' :: r => r
    | cs => cs
  ((Read.lines ⟨[], []⟩ (cs.length + 1)).run' cs)

end FormulaSheet.Toml
