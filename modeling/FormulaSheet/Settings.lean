import FormulaSheet.Sheet
import FormulaSheet.Toml.Document

/-!
# Settings

Settings are read from a TOML document with two tables: `sheet` with the size of the sheet and
`log` with a filter for messages. All keys may be left out, and no others are allowed. A table may
also be written as an array of its values in the order of its keys; items beyond them do not count.

## Main definitions

* `Settings`: the size and the filter.
* `Settings.parse`: the settings in a text.
-/

namespace FormulaSheet

/-- The settings of the program. -/
structure Settings where
  size : Size
  logFilter : Option String
deriving DecidableEq, Repr

/-- Why a text holds no settings. -/
inductive SettingsFault where
  /-- The text is no TOML document. -/
  | document (e : Toml.Fault)
  /-- There is a key that no setting has. -/
  | unknownKey (key : String)
  /-- A value is not of the kind that its key takes. -/
  | wrongKind (key : String)
deriving DecidableEq, Repr

/-- The message of a fault. -/
def SettingsFault.message : SettingsFault → String
  | document e => e.message
  | unknownKey key => "unknown field `" ++ key ++ "`"
  | wrongKind key => "invalid value for `" ++ key ++ "`"

namespace Settings

/-- The settings where none are given. -/
def default : Settings :=
  ⟨Sheet.defaultSize, none⟩

/-- The number of columns or rows that a value gives. -/
def count (key : String) (v : Toml.Value) : Except SettingsFault UInt64 :=
  match v with
  | .integer n => if 0 ≤ n then .ok (UInt64.ofNat n.toNat) else .error (.wrongKind key)
  | _ => .error (.wrongKind key)

/-- The settings with one key of the table `sheet` taken over. -/
def setSheetKey (s : Settings) (key : String) (v : Toml.Value) : Except SettingsFault Settings :=
  if key = "cols" then do
    let cols ← count key v
    .ok { s with size := { s.size with cols } }
  else if key = "rows" then do
    let rows ← count key v
    .ok { s with size := { s.size with rows } }
  else .error (.unknownKey key)

/-- The settings with one key of the table `log` taken over. -/
def setLogKey (s : Settings) (key : String) (v : Toml.Value) : Except SettingsFault Settings :=
  if key = "filter" then
    match v with
    | .string t => .ok { s with logFilter := some t }
    | _ => .error (.wrongKind key)
  else .error (.unknownKey key)

/-- The settings with a table taken over: the keys are those in it, or `names` for an array. -/
def setTable (set : Settings → String → Toml.Value → Except SettingsFault Settings)
    (key : String) (names : List String) (s : Settings) (v : Toml.Value) :
    Except SettingsFault Settings :=
  match v with
  | .table _ fields => fields.foldlM (fun s (k, v) => set s k v) s
  | .array items => (names.zip items).foldlM (fun s (k, v) => set s k v) s
  | _ => .error (.wrongKind key)

/-- The settings with one key of the document taken over. -/
def setKey (s : Settings) (key : String) (v : Toml.Value) : Except SettingsFault Settings :=
  if key = "sheet" then setTable setSheetKey key ["cols", "rows"] s v
  else if key = "log" then setTable setLogKey key ["filter"] s v
  else .error (.unknownKey key)

/-- The settings in the fields of a document. -/
def ofFields (fields : Toml.Fields) : Except SettingsFault Settings :=
  fields.foldlM (fun s (k, v) => setKey s k v) default

/-- The settings in a text. -/
def parse (s : String) : Except SettingsFault Settings :=
  match Toml.parse s with
  | .ok fields => ofFields fields
  | .error e => .error (.document e)

end Settings

end FormulaSheet
