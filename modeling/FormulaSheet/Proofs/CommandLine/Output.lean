import FormulaSheet.Proofs.CommandLine.LastInputs
import FormulaSheet.Proofs.Sheet.Cells

/-!
# What a run writes

A run that starts a session sets its cells, begins a new version, and then writes the value of its
formula, or a line for each cell of the grid. What it writes depends only on the sheet, and the sheet
only on the last inputs of the cells: not on their order, nor on the inputs that were replaced, nor
on the history that they leave. The lines come in row-major order, whatever order the cells of the
grid are found in.

## Main definitions

* `CommandLine.StartsSession`: words that start a session, with their options and the size.
* `CommandLine.started`: the document that a session reads.
* `CommandLine.line`: the line of a cell, when the cells before it have been shown.

## Main results

* `CommandLine.run_showCells`: the lines of some cells.
* `CommandLine.StartsSession.written_eq`: what a run writes, and its exit code.
* `CommandLine.run_of_lastInput?_eq`: runs with the same last inputs write the same.
-/

namespace FormulaSheet

open Document

namespace CommandLine

/-! ### Showing cells -/

/-- The line of a cell, when the cells `before` have been shown. -/
def line (d : Document) (before : List CellRef) (c : CellRef) : String :=
  c.text ++ "\t" ++ ((Document.display c).run (d.afterReads (before.map .display))).1

theorem run_showCells_cons (d : Document) (c : CellRef) (rest : List CellRef) :
    (showCells (c :: rest)).run d =
      ((line d [] c) :: ((showCells rest).run (Read.after d (.display c))).1,
        ((showCells rest).run (Read.after d (.display c))).2) :=
  rfl

/-- The lines of some cells, each shown after those before it. -/
theorem run_showCells (d : Document) (cs : List CellRef) :
    (showCells cs).run d =
      (cs.mapIdx fun i c => line d (cs.take i) c, d.afterReads (cs.map .display)) := by
  induction cs generalizing d with
  | nil => rfl
  | cons c rest ih =>
    rw [run_showCells_cons, ih, List.mapIdx_cons]
    rfl

/-- What is shown depends only on the sheet. -/
theorem fst_run_showCells_congr {d d' : Document} (h : d.sheet = d'.sheet) (cs : List CellRef) :
    ((showCells cs).run d).1 = ((showCells cs).run d').1 := by
  induction cs generalizing d d' with
  | nil => rfl
  | cons c rest ih =>
    have hline : line d [] c = line d' [] c := by
      change c.text ++ "\t" ++ (d.sheet.display c).1 = c.text ++ "\t" ++ (d'.sheet.display c).1
      rw [h]
    have hafter : (Read.after d (.display c)).sheet = (Read.after d' (.display c)).sheet := by
      change (d.sheet.display c).2 = (d'.sheet.display c).2
      rw [h]
    rw [run_showCells_cons, run_showCells_cons, hline, ih hafter]

/-! ### Sessions -/

theorem run_bind {α β : Type} (x : ExceptT Failure (StateM Document) α)
    (f : α → ExceptT Failure (StateM Document) β) (d : Document) :
    (x >>= f).run.run d =
      match x.run.run d with
      | (.ok a, d') => (f a).run.run d'
      | (.error e, d') => (.error e, d') := by
  rw [ExceptT.run_bind, StateT.run_bind]
  generalize x.run.run d = p
  obtain ⟨r, d'⟩ := p
  cases r <;> rfl

/-- A session that has set its cells goes on with a new version. -/
theorem run_session {o : Options} {d : Document} (order : Grid.Enumeration)
    (h : ((setCells o.cells).run.run d).1 = .ok ()) :
    ((session o order).run.run d).1 =
      let d := (endCycle.run ((setCells o.cells).run.run d).2).2
      match o.command with
      | some formula =>
        match ((evaluate formula).run.run d).1 with
        | .ok v => .ok ⟨unlines [v.display], "", exitCode v⟩
        | .error e => .error (.formula e)
      | none =>
        if o.cells.isEmpty then .ok ⟨"", usage, 0⟩
        else .ok ⟨unlines ((showCells ((d.sheet.cells order).map Prod.fst)).run d).1, "", 0⟩ := by
  rw [session, run_bind]
  generalize (setCells o.cells).run.run d = p at h ⊢
  obtain ⟨r, d'⟩ := p
  cases h
  dsimp only
  rw [run_lift_bind]
  generalize endCycle.run d' = q
  obtain ⟨n, d''⟩ := q
  cases o.command with
  | some formula =>
    dsimp only
    rw [run_lift_bind]
    generalize (evaluate formula).run.run d'' = q
    obtain ⟨r, d'''⟩ := q
    cases r <;> rfl
  | none => cases o.cells.isEmpty <;> rfl

/-- Words that start a session on a sheet: they are understood, ask neither for help nor for the
list of functions, and lead to a size for which all their inputs are accepted. -/
structure StartsSession (files : Files) (words : List String) (o : Options) (size : Size) :
    Prop where
  ofWords_eq : Options.ofWords words = .ok o
  help_eq : o.help = false
  listFunctions_eq : o.listFunctions = false
  size_eq : ∃ s, settings files o = .ok s ∧ o.size.getD s.size = size
  run_setCells : ((setCells o.cells).run.run (blank size)).1 = .ok ()

/-- The document that a session reads. -/
def started (size : Size) (cells : List (CellRef × String)) : Document :=
  (endCycle.run ((setCells cells).run.run (blank size)).2).2

section Session

variable {files : Files} {words : List String} {o : Options} {size : Size}
  (order : Grid.Enumeration)

/-- The sheet of a session holds what the last inputs make. -/
theorem sheet_started {cells : List (CellRef × String)}
    (h : ((setCells cells).run.run (blank size)).1 = .ok ()) :
    (started size cells).sheet = ⟨size, 2, putAll ∅ cells⟩ := by
  have hsheet := (run_setCells_ok h).2
  rw [started, run_endCycle, hsheet]
  rfl

/-- What a session writes, and its exit code. -/
def written (command : Option String) (order : Grid.Enumeration) (d : Document) :
    String × UInt8 :=
  match command with
  | some formula =>
    match ((evaluate formula).run.run d).1 with
    | .ok v => (unlines [v.display], exitCode v)
    | .error _ => ("", 1)
  | none => (unlines ((showCells ((d.sheet.cells order).map Prod.fst)).run d).1, 0)

/-- What a session writes depends only on the sheet, and not on the order in which its cells are
found. -/
theorem written_congr (command : Option String) (order order' : Grid.Enumeration)
    {d d' : Document} (h : d.sheet = d'.sheet) :
    written command order d = written command order' d' := by
  cases command with
  | some formula =>
    simp only [written, run_evaluate, h]
    cases Expr.parse (formulaText formula) <;> rfl
  | none => simp only [written, h, Sheet.cells_eq _ order order', fst_run_showCells_congr h]

theorem StartsSession.tryRun_eq (h : StartsSession files words o size) :
    tryRun files words order = ((session o order).run.run (blank size)).1 := by
  obtain ⟨hwords, hhelp, hlist, ⟨s, hsettings, rfl⟩, -⟩ := h
  rw [tryRun, hwords]
  change (if o.help then _ else _) = _
  rw [hhelp, if_neg (by decide), hsettings]
  change (if o.listFunctions then _ else _) = _
  rw [hlist, if_neg (by decide)]

/-- A run that starts a session writes what the session does. -/
theorem StartsSession.written_eq (h : StartsSession files words o size) :
    ((run files words order).out, (run files words order).code) =
      written o.command order (started size o.cells) := by
  rw [run, h.tryRun_eq order, run_session order h.run_setCells]
  change _ = written o.command order (endCycle.run ((setCells o.cells).run.run (blank size)).2).2
  cases o.command with
  | some formula =>
    simp only [written]
    cases ((evaluate formula).run.run _).1 <;> rfl
  | none =>
    simp only [written]
    cases hcells : o.cells with
    | nil =>
      rw [Sheet.cells_eq_toList]
      rfl
    | cons p rest => rfl

/-- Without a formula the cells of the grid are shown. -/
theorem StartsSession.out_eq (h : StartsSession files words o size) (hcommand : o.command = none) :
    (run files words order).out = unlines ((showCells
      (((started size o.cells).sheet.cells order).map Prod.fst)).run (started size o.cells)).1 := by
  have hwritten := congrArg Prod.fst (h.written_eq order)
  rwa [hcommand, written] at hwritten

/-- Without a formula the lines of the cells in the grid are written, in row-major order. -/
theorem StartsSession.exists_shown (h : StartsSession files words o size)
    (hcommand : o.command = none) :
    ∃ shown : List CellRef, shown.Pairwise CellRef.Before ∧
      (∀ c, c ∈ shown ↔ (lastInput? o.cells c).isSome = true) ∧
      (run files words order).out =
        unlines (shown.mapIdx fun i c => line (started size o.cells) (shown.take i) c) := by
  have hsheet := sheet_started h.run_setCells
  have haccepted := (run_setCells_ok h.run_setCells).1
  refine ⟨((started size o.cells).sheet.cells order).map Prod.fst, ?_, fun c => ?_, ?_⟩
  · exact List.pairwise_map.2 (Sheet.pairwise_before_cells _ order)
  · rw [Sheet.mem_map_fst_cells, hsheet]
    exact mem_putAll_empty_iff (fun p hp => (haccepted p hp).2) c
  · rw [h.out_eq order hcommand, run_showCells]

end Session

/-! ### Runs with the same last inputs -/

/-- **Only the last inputs count.** Two runs that start sessions on sheets of the same size, with the
same formula or none, write the same and end with the same exit code when each cell has the same
last input in both, a blank one being none at all. Each run may find the cells of its grid in an
order of its own. Without a formula they write one line for each cell that has a last input, in
row-major order. -/
theorem run_of_lastInput?_eq {files₁ files₂ : Files} {words₁ words₂ : List String}
    {o₁ o₂ : Options} {size : Size} (order₁ order₂ : Grid.Enumeration)
    (h₁ : StartsSession files₁ words₁ o₁ size) (h₂ : StartsSession files₂ words₂ o₂ size)
    (hcommand : o₁.command = o₂.command)
    (hcells : ∀ c, lastInput? o₁.cells c = lastInput? o₂.cells c) :
    (run files₁ words₁ order₁).out = (run files₂ words₂ order₂).out ∧
      (run files₁ words₁ order₁).code = (run files₂ words₂ order₂).code ∧
      (o₁.command = none →
        ∃ shown : List CellRef, shown.Pairwise CellRef.Before ∧
          (∀ c, c ∈ shown ↔ (lastInput? o₁.cells c).isSome = true) ∧
          (run files₁ words₁ order₁).out =
            unlines (shown.mapIdx fun i c => line (started size o₁.cells) (shown.take i) c)) := by
  have hsheet : (started size o₁.cells).sheet = (started size o₂.cells).sheet := by
    rw [sheet_started h₁.run_setCells, sheet_started h₂.run_setCells, putAll_empty_congr hcells]
  have hwritten : ((run files₁ words₁ order₁).out, (run files₁ words₁ order₁).code) =
      ((run files₂ words₂ order₂).out, (run files₂ words₂ order₂).code) := by
    rw [h₁.written_eq, h₂.written_eq, hcommand, written_congr _ order₁ order₂ hsheet]
  exact ⟨congrArg Prod.fst hwritten, congrArg Prod.snd hwritten, h₁.exists_shown order₁⟩

/-- No file can be read. -/
private def noFiles : Files :=
  ⟨fun _ => .error .notFound, none⟩

/-- A number that is erased again, and two formulas that refer to each other. -/
private def erasingWords : List String :=
  ["-s", ":0:0=7", "--set", ":1:0==:0:1", "--no-config", "-s", ":0:1==:1:0+1", "-s", ":0:0= ",
    "--size", "2x2"]

private def erasing : Options :=
  ⟨false, false, true, none, [(⟨0, 0⟩, "7"), (⟨1, 0⟩, "=:0:1"), (⟨0, 1⟩, "=:1:0+1"),
    (⟨0, 0⟩, " ")], some ⟨2, 2⟩, none⟩

/-- The same formulas in another order, one of them after another input. -/
private def replacingWords : List String :=
  ["--size", "9x9", "-s", ":0:1=5", "-s", ":0:1==:1:0+1", "--set", ":1:0==:0:1", "--size", "2x2"]

private def replacing : Options :=
  ⟨false, false, false, none, [(⟨0, 1⟩, "5"), (⟨0, 1⟩, "=:1:0+1"), (⟨1, 0⟩, "=:0:1")],
    some ⟨2, 2⟩, none⟩

private theorem ok_of_toOption {ε α : Type} {x : Except ε α} {a : α} (h : x.toOption = some a) :
    x = .ok a := by
  cases x with
  | error e => cases h
  | ok b => exact congrArg Except.ok (Option.some.inj h)

private theorem startsSession_erasing : StartsSession noFiles erasingWords erasing ⟨2, 2⟩ where
  ofWords_eq := ok_of_toOption (by decide +kernel)
  help_eq := rfl
  listFunctions_eq := rfl
  size_eq := ⟨_, rfl, rfl⟩
  run_setCells := ok_of_toOption (by decide +kernel)

private theorem startsSession_replacing :
    StartsSession noFiles replacingWords replacing ⟨2, 2⟩ where
  ofWords_eq := ok_of_toOption (by decide +kernel)
  help_eq := rfl
  listFunctions_eq := rfl
  size_eq := ⟨_, rfl, rfl⟩
  run_setCells := ok_of_toOption (by decide +kernel)

private theorem lastInput?_erasing (c : CellRef) :
    lastInput? erasing.cells c = lastInput? replacing.cells c :=
  lastInput?_congr (by decide +kernel) c

/-- Goes through the cells from the first one in row-major order to the last. -/
private def forward : Grid.Enumeration :=
  ⟨fun g => g.toList, fun _ => .refl _⟩

private theorem shown_replacing :
    (started ⟨2, 2⟩ replacing.cells).sheet.grid.toList.map Prod.fst = [⟨1, 0⟩, ⟨0, 1⟩] ∧
      ((showCells [⟨1, 0⟩, ⟨0, 1⟩]).run (started ⟨2, 2⟩ replacing.cells)).1 =
        [":1:0\t!#CYCLE", ":0:1\t!#CYCLE"] :=
  ⟨by decide +kernel, by decide +kernel⟩

private theorem out_replacing :
    (run noFiles replacingWords forward).out = unlines [":1:0\t!#CYCLE", ":0:1\t!#CYCLE"] := by
  obtain ⟨hcells, hlines⟩ := shown_replacing
  rw [startsSession_replacing.out_eq forward rfl, Sheet.cells_eq_toList, hcells, hlines]

/-- Two runs with the same cycle of formulas show it the same way, whichever cell they find
first. -/
theorem run_of_lastInput?_eq_onCycle :
    StartsSession noFiles erasingWords erasing ⟨2, 2⟩ ∧
      StartsSession noFiles replacingWords replacing ⟨2, 2⟩ ∧
      (∀ c, lastInput? erasing.cells c = lastInput? replacing.cells c) ∧
      (run noFiles erasingWords .backward).out = (run noFiles replacingWords forward).out ∧
      (run noFiles erasingWords .backward).code = (run noFiles replacingWords forward).code ∧
      (run noFiles replacingWords forward).out = unlines [":1:0\t!#CYCLE", ":0:1\t!#CYCLE"] :=
  have h := run_of_lastInput?_eq .backward forward startsSession_erasing startsSession_replacing rfl
    lastInput?_erasing
  ⟨startsSession_erasing, startsSession_replacing, lastInput?_erasing, h.1, h.2.1,
    out_replacing⟩

end CommandLine

end FormulaSheet
