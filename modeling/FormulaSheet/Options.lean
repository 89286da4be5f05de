import FormulaSheet.Evaluation

/-!
# Command line options

The words of the command line are read from left to right into options. A word that takes a value
takes the next word, whatever it looks like. Where an option is given more than once the last one
counts, except that all cells are set in order.

## Main definitions

* `CliOption`: an option, with `CliOption.words` for its written form.
* `CliOption.readAll`: the options that a list of words stands for.
* `Options`: what the options ask for together.
-/

namespace FormulaSheet

/-- An option of the command line. -/
inductive CliOption where
  | help
  | listFunctions
  | noConfig
  | command (formula : String)
  | set (cell : CellRef) (input : String)
  | size (s : Size)
  | config (path : String)
deriving DecidableEq, Repr

/-- What can be wrong with the words of the command line. -/
inductive ArgumentError where
  | missingFormula
  | missingAssignment
  | missingSize
  | missingPath
  | notAnAssignment (word : String)
  | invalidReference (text : String)
  | invalidSize (word : String)
  | unknown (word : String)
deriving DecidableEq, Repr

/-- The message of an error. -/
def ArgumentError.message : ArgumentError → String
  | missingFormula => "--command requires a formula"
  | missingAssignment => "--set requires <REF>=<INPUT>"
  | missingSize => "--size requires <COLS>x<ROWS>"
  | missingPath => "--config requires a file path"
  | notAnAssignment word => "Expected <REF>=<INPUT>, got " ++ word
  | invalidReference text => "Invalid cell reference: " ++ text ++ " (expected :col:row)"
  | invalidSize word => "Invalid size: " ++ word ++ " (expected e.g. 10x20)"
  | unknown word => "Unknown argument: " ++ word

/-! ### Values of options -/

/-- The characters before and after the first `mark`. -/
def splitFirst? (mark : Char) (cs : List Char) : Option (List Char × List Char) :=
  match cs.dropWhile (· ≠ mark) with
  | _ :: after => some (cs.takeWhile (· ≠ mark), after)
  | [] => none

/-- The positive number of columns or rows that characters denote, up to `2 ^ 64 - 1`. A plus sign
may stand in front. -/
def extent? (cs : List Char) : Option UInt64 :=
  let ds := match cs with
    | '+' :: r => r
    | r => r
  match CellRef.coordinate? ds with
  | some n => if n = 0 then none else some n
  | none => none

/-- The size that `COLSxROWS` denotes. -/
def Size.ofText? (s : String) : Option Size := do
  let (cols, rows) ← splitFirst? 'x' s.toList
  return ⟨← extent? cols, ← extent? rows⟩

/-- The written form `COLSxROWS` of a size. -/
def Size.text (s : Size) : String :=
  s.cols.toNat.repr ++ "x" ++ s.rows.toNat.repr

namespace CliOption

/-- The words of an option, in their long form. -/
def words : CliOption → List String
  | help => ["--help"]
  | listFunctions => ["--list-functions"]
  | noConfig => ["--no-config"]
  | command formula => ["--command", formula]
  | set cell input => ["--set", cell.text ++ "=" ++ input]
  | size s => ["--size", s.text]
  | config path => ["--config", path]

/-- The option that sets a cell, from `REF=INPUT`; the input may hold further equals signs. -/
def ofAssignment (word : String) : Except ArgumentError CliOption :=
  match splitFirst? '=' word.toList with
  | none => .error (.notAnAssignment word)
  | some (ref, input) =>
    match CellRef.ofText? (String.ofList ref) with
    | some cell => .ok (set cell (String.ofList input))
    | none => .error (.invalidReference (String.ofList ref))

/-- The option that gives the size of the sheet. -/
def ofSize (word : String) : Except ArgumentError CliOption :=
  match Size.ofText? word with
  | some s => .ok (size s)
  | none => .error (.invalidSize word)

/-- The option that one word stands for. -/
def flag? (word : String) : Option CliOption :=
  if word = "-h" ∨ word = "--help" then some help
  else if word = "-l" ∨ word = "--list-functions" then some listFunctions
  else if word = "--no-config" then some noConfig
  else none

/-- How a word makes an option of the word after it: the error if there is none, and the reader of
the value. -/
def taking? (word : String) :
    Option (ArgumentError × (String → Except ArgumentError CliOption)) :=
  if word = "-c" ∨ word = "--command" then some (.missingFormula, fun v => .ok (command v))
  else if word = "-s" ∨ word = "--set" then some (.missingAssignment, ofAssignment)
  else if word = "--size" then some (.missingSize, ofSize)
  else if word = "--config" then some (.missingPath, fun v => .ok (config v))
  else none

/-- The options that a list of words stands for, or the first error. -/
def readAll : List String → Except ArgumentError (List CliOption)
  | [] => .ok []
  | word :: rest =>
    match flag? word with
    | some o => return o :: (← readAll rest)
    | none =>
      match taking? word with
      | none => .error (.unknown word)
      | some (missing, read) =>
        match rest with
        | [] => .error missing
        | v :: rest => do
          let o ← read v
          return o :: (← readAll rest)

end CliOption

/-- What the options ask for together. -/
structure Options where
  help : Bool
  listFunctions : Bool
  noConfig : Bool
  command : Option String
  cells : List (CellRef × String)
  size : Option Size
  config : Option String
deriving DecidableEq, Repr

namespace Options

/-- Nothing is asked for. -/
def empty : Options :=
  ⟨false, false, false, none, [], none, none⟩

/-- One option more. -/
def add (o : Options) : CliOption → Options
  | .help => { o with help := true }
  | .listFunctions => { o with listFunctions := true }
  | .noConfig => { o with noConfig := true }
  | .command formula => { o with command := some formula }
  | .set cell input => { o with cells := o.cells ++ [(cell, input)] }
  | .size s => { o with size := some s }
  | .config path => { o with config := some path }

/-- What a list of words asks for. -/
def ofWords (words : List String) : Except ArgumentError Options :=
  (CliOption.readAll words).map (·.foldl add empty)

end Options

end FormulaSheet
