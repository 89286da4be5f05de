import FormulaSheet.CommandLine

/-!
# The files of a run

A run reads at most one file: the one that the command line asks for, or else the settings of the
user. So the files that may be needed can be read in advance, and no others matter. A path with a
slash in front leads to the same file from every folder, so a run does not depend on the working
folder if its paths are of this kind.

## Main definitions

* `CommandLine.settingsPath?`: the path of the file that a run reads.

## Main results

* `Place.follow_slash`: a path of two parts is followed part by part.
* `Place.read_of_slash`: a path with a slash in front leads to the same file from every folder.
* `CommandLine.run_congr`: a run reads no other file.
* `CommandLine.run_of_slash`: it does not depend on the working folder.
-/

namespace FormulaSheet

/-! ### Following paths -/

namespace Place

theorem names_ne_nil (cs : List Char) : names cs ≠ [] := by
  cases cs with
  | nil => simp [names]
  | cons c cs =>
    rw [names]
    split
    · exact List.cons_ne_nil _ _
    · split <;> exact List.cons_ne_nil _ _

/-- The names before a slash come before those after it. -/
theorem names_append_slash (cs ds : List Char) :
    names (cs ++ '/' :: ds) = names cs ++ names ds := by
  induction cs with
  | nil => rfl
  | cons c cs ih =>
    rw [List.cons_append, names, names, ih]
    by_cases hc : c = '/'
    · rw [if_pos hc, if_pos hc]
      rfl
    · rw [if_neg hc, if_neg hc]
      cases hn : names cs with
      | nil => exact absurd hn (names_ne_nil cs)
      | cons n ns => rfl

/-- A path of two parts is followed part by part, the second one from where the first leads to. -/
theorem follow_slash (p : Place) {a b : String} (ha : a.toList ≠ []) (hb : b.toList ≠ [])
    (hrelative : b.toList.head? ≠ some '/')
    (hlimit : (a ++ "/" ++ b).utf8ByteSize ≤ pathLimit) :
    p.follow (a ++ "/" ++ b) = (p.follow a).bind fun q => q.follow b := by
  have hsize : a.utf8ByteSize ≤ pathLimit ∧ b.utf8ByteSize ≤ pathLimit := by
    simp only [String.utf8ByteSize_append] at hlimit
    omega
  have hchars : (a ++ "/" ++ b).toList = a.toList ++ '/' :: b.toList := by simp
  have hhead : (a.toList ++ '/' :: b.toList).head? = a.toList.head? := by
    cases h : a.toList with
    | nil => exact absurd h ha
    | cons c cs => rfl
  have hne : a.toList ++ '/' :: b.toList ≠ [] := List.append_ne_nil_of_left_ne_nil ha _
  simp only [follow, hchars, hhead, if_neg hne, if_neg ha, if_neg hb, if_neg hrelative,
    if_neg (Nat.not_lt.2 hlimit), if_neg (Nat.not_lt.2 hsize.1), if_neg (Nat.not_lt.2 hsize.2),
    names_append_slash, List.map_append, List.foldlM_append]
  rfl

/-- A path with a slash in front leads to the same file from every folder. -/
theorem read_of_slash {p p' : Place} (hroot : p.outermost = p'.outermost) {path : String}
    (hpath : path.toList.head? = some '/') : p.read path = p'.read path := by
  have hfollow : p.follow path = p'.follow path := by
    simp only [follow, hpath, if_true, hroot]
  rw [read, read, hfollow]

end Place

/-! ### The files of a run -/

namespace CommandLine

/-- The path of the file that a run reads, if it reads one. -/
def settingsPath? (o : Options) (userPath : Option String) : Option String :=
  o.config <|> if o.noConfig then none else userPath

variable {files files' : Files}

/-- Settings are read from one file. -/
theorem settings_congr (huser : files.userPath = files'.userPath) {o : Options}
    (hread : ∀ path, settingsPath? o files.userPath = some path →
      files.read path = files'.read path) : settings files o = settings files' o := by
  have hload : ∀ path, settingsPath? o files.userPath = some path →
      load files path = load files' path := fun path hpath => by
    rw [load, load, hread path hpath]
  rw [settings, settings, ← huser]
  cases hconfig : o.config with
  | some path => exact hload path (by simp [settingsPath?, hconfig])
  | none =>
    cases hno : o.noConfig with
    | true => rfl
    | false =>
      cases hpath : files.userPath with
      | none => rfl
      | some path =>
        dsimp only
        rw [hload path (by simp [settingsPath?, hconfig, hno, hpath])]

/-- **A run reads no other file.** Two runs of the same words are the same when the path of the
settings of the user is the same in both and the file that they read, if any, is. -/
theorem run_congr (huser : files.userPath = files'.userPath) (words : List String)
    (order : Grid.Enumeration)
    (hread : ∀ o path, Options.ofWords words = .ok o →
      settingsPath? o files.userPath = some path → files.read path = files'.read path) :
    run files words order = run files' words order := by
  have htry : tryRun files words order = tryRun files' words order := by
    rw [tryRun, tryRun]
    cases ho : Options.ofWords words with
    | error e => rfl
    | ok o =>
      have hsettings : settings files o = settings files' o :=
        settings_congr huser fun path => hread o path ho
      change (if o.help then _ else _) = if o.help then _ else _
      rw [hsettings]
  rw [run, run, htry]

/-- A run does not depend on the working folder when the paths that it may read have a slash in
front. -/
theorem run_of_slash {p p' : Place} (hroot : p.outermost = p'.outermost) {userPath : Option String}
    (words : List String) (order : Grid.Enumeration)
    (hpath : ∀ o path, Options.ofWords words = .ok o → settingsPath? o userPath = some path →
      path.toList.head? = some '/') :
    run ⟨p.read, userPath⟩ words order = run ⟨p'.read, userPath⟩ words order := by
  have huser : (⟨p.read, userPath⟩ : Files).userPath = (⟨p'.read, userPath⟩ : Files).userPath := rfl
  refine run_congr huser words order fun o path ho hread => ?_
  exact Place.read_of_slash hroot (hpath o path ho hread)

end CommandLine

end FormulaSheet
