/-!
# Values and tables of TOML

A TOML document is a table: keys with values, where values may be tables themselves. A table is
written in one of several ways, and which one decides how it may be extended. A table in braces is
complete. A table with a header is defined once. A table that only stands on the way of a longer
header may still get a header of its own. A table that comes from dotted keys grows by further
dotted keys and by nothing else. No key is given twice.

## Main definitions

* `Toml.Value`: values, with `Toml.Origin` telling how a table came about.
* `Toml.Fault`: what can be wrong with a document.
* `Toml.addAt`: a table with a value under a dotted key.
* `Toml.openTable`, `Toml.openElement`: a table after a header.
-/

namespace FormulaSheet.Toml

/-- How a table came about. -/
inductive Origin where
  /-- It stands in braces. -/
  | inline
  /-- It has a header. -/
  | header
  /-- It stands on the way of a header. -/
  | implicit
  /-- It comes from a dotted key. -/
  | dotted
deriving DecidableEq, Repr

/-- A value. Dates and times are kept as they are written. -/
inductive Value where
  | string (s : String)
  | integer (n : Int)
  | float (x : Float)
  | boolean (b : Bool)
  | datetime (s : String)
  | array (items : List Value)
  | table (origin : Origin) (fields : List (String × Value))
  /-- An array of tables with headers, the last one first. -/
  | tables (elements : List (List (String × Value)))

/-- The contents of a table. -/
abbrev Fields := List (String × Value)

/-- What can be wrong with a document. -/
inductive Fault where
  /-- The text stops making sense where this many characters are left. -/
  | malformed (left : Nat)
  /-- A key is given again, or a table is defined or extended where it may not be. -/
  | redefined (key : String)
  /-- A key leads through a value that is no table. -/
  | notATable (key : String)
  /-- Values or keys nest too deep. -/
  | tooDeep
deriving DecidableEq, Repr

/-- The message of a fault. -/
def Fault.message : Fault → String
  | malformed left => "invalid TOML, " ++ left.repr ++ " characters before the end"
  | redefined key => "duplicate key `" ++ key ++ "`"
  | notATable key => "key `" ++ key ++ "` is not a table"
  | tooDeep => "recursion limit exceeded"

/-- The fields with the value of one key replaced, or added at the end. -/
def setField (key : String) (v : Value) : Fields → Fields
  | [] => [(key, v)]
  | (k, w) :: rest => if k = key then (k, v) :: rest else (k, w) :: setField key v rest

/-- The fields of a table with the value `v` under the dotted key that consists of `path` and `key`.
Tables on the way are made as needed. -/
def addAt (key : String) (v : Value) : (path : List String) → Fields → Except Fault Fields
  | [], fields =>
    match fields.lookup key with
    | some _ => .error (.redefined key)
    | none => .ok (fields ++ [(key, v)])
  | p :: path, fields =>
    match fields.lookup p with
    | none => do
      let sub ← addAt key v path []
      .ok (setField p (.table .dotted sub) fields)
    | some (.table .dotted sub) => do
      let sub ← addAt key v path sub
      .ok (setField p (.table .dotted sub) fields)
    | some (.table .implicit sub) =>
      if path.isEmpty then .error (.redefined key)
      else do
        let sub ← addAt key v path sub
        .ok (setField p (.table .implicit sub) fields)
    | some (.table .header _) => .error (.redefined p)
    | some (.tables (last :: before)) =>
      if path.isEmpty then .error (.redefined key)
      else do
        let last ← addAt key v path last
        .ok (setField p (.tables (last :: before)) fields)
    | some _ => .error (.notATable p)

/-- The fields of a table with `change` made to the table at `path`. An array of tables stands for
its last element, and missing tables on the way are made. -/
def changeAt (change : Fields → Except Fault Fields) :
    (path : List String) → Fields → Except Fault Fields
  | [], fields => change fields
  | p :: path, fields =>
    match fields.lookup p with
    | none => do
      let sub ← changeAt change path []
      .ok (setField p (.table .implicit sub) fields)
    | some (.table .inline _) => .error (.notATable p)
    | some (.table origin sub) => do
      let sub ← changeAt change path sub
      .ok (setField p (.table origin sub) fields)
    | some (.tables (last :: before)) => do
      let last ← changeAt change path last
      .ok (setField p (.tables (last :: before)) fields)
    | some _ => .error (.notATable p)

/-- The fields after the header of the table `key`. -/
def openTable (key : String) (fields : Fields) : Except Fault Fields :=
  match fields.lookup key with
  | none => .ok (fields ++ [(key, .table .header [])])
  | some (.table .implicit sub) => .ok (setField key (.table .header sub) fields)
  | some _ => .error (.redefined key)

/-- The fields after the header of a further element of the array of tables `key`. -/
def openElement (key : String) (fields : Fields) : Except Fault Fields :=
  match fields.lookup key with
  | none => .ok (fields ++ [(key, .tables [[]])])
  | some (.tables elements) => .ok (setField key (.tables ([] :: elements)) fields)
  | some _ => .error (.redefined key)

/-- The table that dotted keys with values in braces make. -/
def ofPairs (pairs : List (List String × String × Value)) : Except Fault Fields :=
  pairs.foldlM (fun fields (path, key, v) => addAt key v path fields) []

end FormulaSheet.Toml
