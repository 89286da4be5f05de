import FormulaSheet.CommandLine

/-!
# The program

Standard input is not read. The settings of the user are in the program's own folder of the
directory for configuration files, which is `$XDG_CONFIG_HOME` or else `$HOME/.config`.
-/

namespace FormulaSheet.Main

/-- Whether an error has the given number; numbers may come with their sign changed. -/
def hasNumber (number code : UInt32) : Bool :=
  code = number || code = -number

/-- Why a file cannot be read. -/
def reason (e : IO.Error) : FileError :=
  match e with
  | .noFileOrDirectory .. => .notFound
  | .permissionDenied .. => .permissionDenied
  | .inappropriateType _ code _ => if hasNumber 21 code then .isAFolder else .notAFolder
  | .invalidArgument _ code _ => if hasNumber 36 code then .nameTooLong else .other (toString e)
  | e => .other (toString e)

/-- The text of a file, or the reason why there is none. -/
def readText (path : String) : IO (Except FileError String) := do
  match ← (IO.FS.readBinFile path).toBaseIO with
  | .error e => return .error (reason e)
  | .ok bytes =>
    match String.fromUTF8? bytes with
    | some s => return .ok s
    | none => return .error .notText

/-- The path of the settings of the user. -/
def userPath? : IO (Option String) := do
  let home ← IO.getEnv "HOME"
  match ← IO.getEnv "XDG_CONFIG_HOME" with
  | some dir =>
    if dir.startsWith "/" then return some (dir ++ "/elow/config.toml")
    else return home.map (· ++ "/.config/elow/config.toml")
  | none => return home.map (· ++ "/.config/elow/config.toml")

/-- The files at the given paths, read in advance. -/
def readAll : List String → IO (String → Except FileError String)
  | [] => return fun _ => .error .notFound
  | path :: rest => do
    let text ← readText path
    let texts ← readAll rest
    return fun p => if p = path then text else texts p

/-- The files that the words may lead to. -/
def files (words : List String) : IO Files := do
  let requested := (Options.ofWords words).toOption.bind Options.config
  let user ← userPath?
  return ⟨← readAll (requested.toList ++ user.toList), user⟩

end FormulaSheet.Main

/-- Runs the program. -/
def main (words : List String) : IO UInt32 := do
  let report := FormulaSheet.CommandLine.run (← FormulaSheet.Main.files words) words
  IO.print report.out
  IO.eprint report.err
  return report.code.toUInt32
