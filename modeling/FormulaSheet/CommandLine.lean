import FormulaSheet.Document
import FormulaSheet.Files
import FormulaSheet.Options
import FormulaSheet.Settings

/-!
# The command line program

The program sets the cells that the command line gives, then prints the value of a formula, or each
cell with its value where there is no formula. What it does is a function of the words of the
command line, of the files it may read, and of the order in which the cells of a grid are found.

## Main definitions

* `CommandLine.Report`: what it writes, and its exit code.
* `CommandLine.run`: a run of the program.
-/

namespace FormulaSheet.CommandLine

/-- What a run writes to standard output and to standard error, and its exit code. -/
structure Report where
  out : String
  err : String
  code : UInt8
deriving DecidableEq, Repr

/-- Why a run fails. -/
inductive Failure where
  | arguments (e : ArgumentError)
  | unreadable (path : String) (e : FileError)
  | settings (path : String) (e : SettingsFault)
  | cell (c : CellRef) (e : EditError)
  | formula (e : EditError)

/-- The message of a failure. -/
def Failure.message : Failure → String
  | arguments e => e.message
  | unreadable path e => "Failed to read " ++ path ++ ": " ++ e.message
  | settings path e => "Failed to parse " ++ path ++ ": " ++ e.message
  | cell c e => "Failed to set " ++ c.text ++ ": " ++ e.message
  | formula e => e.message

/-- The lines of text, each ended by a line break. -/
def unlines (ls : List String) : String :=
  String.join (ls.map (· ++ "\n"))

/-- The help text. -/
def usage : String :=
  unlines ["Usage: elow [OPTIONS]",
    "",
    "Options:",
    "  -c, --command <FORMULA>   Evaluate a formula and print the result",
    "  -s, --set <REF>=<INPUT>   Set a cell before evaluating (can be repeated),",
    "                            e.g. --set :0:0=5 --set ':0:1==:0:0*2'",
    "      --size <COLS>x<ROWS>  Sheet size (default from config, else 26x100)",
    "      --config <FILE>       Load config from FILE",
    "      --no-config           Ignore the user config file",
    "  -l, --list-functions      List built-in functions",
    "  -h, --help                Print help",
    "",
    "Without --command, every cell set with --set is printed with its value.",
    "Set ELOW_LOG (e.g. ELOW_LOG=debug) to control logging."]

/-- The text with spaces after it up to a width. -/
def padRight (width : Nat) (s : String) : String :=
  s ++ String.ofList (List.replicate (width - s.length) ' ')

/-- The list of functions. -/
def functionList : String :=
  unlines (Builtin.all.map fun f =>
    padRight 8 f.name ++ " " ++ padRight 4 f.arity.text ++ " " ++ f.description)

/-- The settings in the file at a path. -/
def load (files : Files) (path : String) : Except Failure Settings := do
  let text ← (files.read path).mapError (.unreadable path)
  (Settings.parse text).mapError (.settings path)

/-- The settings for a run. A file that is asked for has to be readable and hold settings. The
settings of the user do not count where they are missing or broken. -/
def settings (files : Files) (o : Options) : Except Failure Settings :=
  match o.config, o.noConfig, files.userPath with
  | some path, _, _ => load files path
  | none, false, some path => .ok ((load files path).toOption.getD .default)
  | none, _, _ => .ok .default

/-- Sets cells in order, up to the first failure. -/
def setCells : List (CellRef × String) → ExceptT Failure (StateM Document) Unit
  | [] => return
  | (c, input) :: rest => do
    match ← (Document.setInput c input).run with
    | .ok _ => setCells rest
    | .error e => throw (.cell c e)

/-- Shows each of the cells on a line of its own. -/
def showCells : List CellRef → StateM Document (List String)
  | [] => return []
  | c :: rest => do
    let text ← Document.display c
    return (c.text ++ "\t" ++ text) :: (← showCells rest)

/-- Whether a value is an error. -/
def exitCode : Value → UInt8
  | .number _ => 0
  | .error _ => 1

/-- Sets the cells, then prints the value of the formula or all cells. -/
def session (o : Options) (order : Grid.Enumeration) :
    ExceptT Failure (StateM Document) Report := do
  setCells o.cells
  let _ ← (Document.endCycle : StateM Document Nat)
  match o.command with
  | some formula =>
    match ← (Document.evaluate formula).run with
    | .ok v => return ⟨unlines [v.display], "", exitCode v⟩
    | .error e => throw (.formula e)
  | none =>
    if o.cells.isEmpty then return ⟨"", usage, 0⟩
    else
      let d : Document ← get
      return ⟨unlines (← showCells ((d.sheet.cells order).map Prod.fst)), "", 0⟩

/-- A run that may fail. -/
def tryRun (files : Files) (words : List String) (order : Grid.Enumeration) :
    Except Failure Report := do
  let o ← (Options.ofWords words).mapError .arguments
  if o.help then return ⟨"", usage, 0⟩
  let s ← settings files o
  if o.listFunctions then return ⟨functionList, "", 0⟩
  ((session o order).run.run (Document.blank (o.size.getD s.size))).1

/-- A run of the program, where `order` is the order in which the cells of the grid are found. -/
def run (files : Files) (words : List String) (order : Grid.Enumeration := .backward) : Report :=
  match tryRun files words order with
  | .ok r => r
  | .error e => ⟨"", "Error: " ++ e.message ++ "\n", 1⟩

end FormulaSheet.CommandLine
