/-!
# Files

The program finds its settings in files, which it knows by their paths. A path is a row of names
with slashes between them. It is followed name by name, from the outermost folder where it starts
with a slash and from the working folder otherwise. An empty name and `.` stay in a folder, and `..`
leaves it for the folder around it. Nothing can be looked up in a file, not even with a slash at the
end of the path.

## Main definitions

* `FileError`: why a file cannot be read.
* `Files`: the files that the program may read.
* `FileTree`, `Place`: files and folders as data, and a place among them.
* `Place.read`: the text of the file at the end of a path.
-/

namespace FormulaSheet

/-! ### Reading files -/

/-- Why a file cannot be read. -/
inductive FileError where
  | notFound
  | permissionDenied
  | notAFolder
  | isAFolder
  | nameTooLong
  /-- The contents are no text in UTF-8. -/
  | notText
  | other (reason : String)
deriving DecidableEq, Repr

/-- The message of an error. -/
def FileError.message : FileError → String
  | notFound => "No such file or directory (os error 2)"
  | permissionDenied => "Permission denied (os error 13)"
  | notAFolder => "Not a directory (os error 20)"
  | isAFolder => "Is a directory (os error 21)"
  | nameTooLong => "File name too long (os error 36)"
  | notText => "stream did not contain valid UTF-8"
  | other reason => reason

/-- The files that the program may read: the text of a file by its path, and the path of the
settings of the user, if there is a place for them. -/
structure Files where
  read : String → Except FileError String
  userPath : Option String

/-! ### Folders -/

/-- A text file, or a folder with its entries by name. -/
inductive FileTree where
  | file (text : String)
  | folder (entries : List (String × FileTree))

/-- A file or folder, with the folders around it from the innermost to the outermost. -/
structure Place where
  here : FileTree
  around : List FileTree

namespace Place

/-- The place of the outermost folder. -/
def root (t : FileTree) : Place :=
  ⟨t, []⟩

/-- The place of the outermost folder around a place. -/
def outermost (p : Place) : Place :=
  match p.around.getLast? with
  | some t => root t
  | none => p

/-- How many bytes a name may have. -/
def nameLimit : Nat := 255

/-- How many bytes a path may have. -/
def pathLimit : Nat := 4095

/-- The place that one name of a path leads to. -/
def step (p : Place) (name : String) : Except FileError Place :=
  match p.here with
  | .file _ => .error .notAFolder
  | .folder entries =>
    if name = "" ∨ name = "." then .ok p
    else if name = ".." then
      match p.around with
      | [] => .ok p
      | outer :: around => .ok ⟨outer, around⟩
    else if nameLimit < name.utf8ByteSize then .error .nameTooLong
    else
      match entries.lookup name with
      | some t => .ok ⟨t, p.here :: p.around⟩
      | none => .error .notFound

/-- The names in the characters of a path. -/
def names : List Char → List (List Char)
  | [] => [[]]
  | c :: cs =>
    if c = '/' then [] :: names cs
    else
      match names cs with
      | n :: ns => (c :: n) :: ns
      | [] => [[c]]

/-- The place that a path leads to from the folder `p`. -/
def follow (p : Place) (path : String) : Except FileError Place :=
  let cs := path.toList
  if cs = [] then .error .notFound
  else if pathLimit < path.utf8ByteSize then .error .nameTooLong
  else
    let start := if cs.head? = some '/' then p.outermost else p
    ((names cs).map String.ofList).foldlM step start

/-- The text of the file that a path leads to from the folder `p`. -/
def read (p : Place) (path : String) : Except FileError String := do
  match (← p.follow path).here with
  | .file text => return text
  | .folder _ => throw .isAFolder

end Place

end FormulaSheet
