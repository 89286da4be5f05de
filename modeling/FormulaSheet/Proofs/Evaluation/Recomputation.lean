import FormulaSheet.Proofs.Evaluation.Current
import FormulaSheet.Proofs.Evaluation.Fuel

/-!
# Each formula is computed once

A formula is computed only when nothing counts for its cell, and then a value is remembered that
counts until there is a new version. While it is computed its cell is on the trail, so no reference
that leads back to it enters it a second time. Hence however many reads there are at one version,
through whatever cycles and on whatever trails, each formula is computed at most once, and what the
reads write is what these computations remember.

To say so, the evaluator is given a journal of the cells it enters. Both are the same walk: an entry
in the journal is made just before a formula is computed, and nothing else is different.

## Main definitions

* `Evaluation.visit`: one cell, with a note taken before its formula is computed.
* `Evaluation.Call`: what can be asked of a grid, with `Evaluation.Call.record` for the answer with
  a journal.
* `Evaluation.recordAll`: several calls at one version.
* `Evaluation.Recomputed`: what computing the formulas of some cells makes of a grid.

## Main results

* `Evaluation.resolveWith_eq_visit`: the evaluator visits cells and takes no notes.
* `Evaluation.Runs.exists_record`: the journal of an evaluation tells what became of the grid.
* `Evaluation.formulas_computed_once`: calls write what they remember, and compute nothing twice.
-/

namespace FormulaSheet

namespace Evaluation

/-! ### Visits -/

section Visit

variable {m : Type → Type} [Monad m] [MonadStateOf State m]

/-- The value of a cell that is looked up by `look`, where `compute` evaluates the formula of a cell
that has to be entered and `note` is told of that cell first. -/
def visit (version : Nat) (look : Grid → CellRef → Lookup) (note : CellRef → m Unit)
    (compute : Expr → m Value) (c : CellRef) : m Value := do
  let s ← getThe State
  match look s.grid c with
  | .known v => return v
  | .stale e =>
    match s.trail.enter? c with
    | none => return .error .cycle
    | some trail =>
      note c
      set { s with trail }
      let v ← compute e
      modifyThe State fun s => ⟨s.grid.remember c v version, s.trail.leave c⟩
      return v

end Visit

/-- The evaluator visits cells and takes no notes. -/
theorem resolveWith_eq_visit (size : Size) (version : Nat) (compute : Expr → Eval Value) :
    resolveWith size version compute =
      visit version (lookup size version) (fun _ => pure ()) compute :=
  rfl

/-- Looks up a cell in a grid, whatever the size of the sheet is. -/
def lookupStored (version : Nat) (grid : Grid) (c : CellRef) : Lookup :=
  match grid[c]? with
  | some (.number x) => .known (.number x)
  | some (.formula f) =>
    match f.cached? version with
    | some v => .known v
    | none => .stale f.expr
  | some .empty | some (.text _) | none => .known (.error .cellType)

/-- Inside the sheet a cell is looked up in the grid, and outside nothing is. -/
theorem lookup_eq (size : Size) (version : Nat) (g : Grid) (c : CellRef) :
    lookup size version g c =
      if size.contains c then lookupStored version g c else .known (.error .position) :=
  rfl

theorem exists_formula_of_lookupStored {version : Nat} {g : Grid} {c : CellRef} {e : Expr}
    (h : lookupStored version g c = .stale e) :
    ∃ f, g[c]? = some (.formula f) ∧ f.cached? version = none ∧ f.expr = e := by
  rw [lookupStored] at h
  split at h
  · cases h
  · next f hf =>
    split at h
    · cases h
    · next hn => exact ⟨f, hf, hn, Lookup.stale.inj h⟩
  · cases h
  · cases h
  · cases h

/-! ### Journals -/

/-- Evaluation with a journal: the cells that were entered, in order. -/
abbrev Recorded := StateT (List CellRef) Eval

/-- Enters a cell in the journal. -/
def note (c : CellRef) : Recorded Unit :=
  modify (· ++ [c])

/-- The value of a cell, with fuel for `n` nested formula cells and a journal. -/
def record (size : Size) (version : Nat) : (n : Nat) → CellRef → Recorded Value
  | 0 => visit version (lookup size version) note fun _ => liftM (failure : Eval Value)
  | n + 1 => visit version (lookup size version) note fun e => e.evalM (record size version n)

/-- The evaluator with a journal. -/
def Task.record (size : Size) (version n : Nat) : (t : Task) → Recorded t.Result
  | cell c => Evaluation.record size version n c
  | expr e => e.evalM (Evaluation.record size version n)
  | args es => Expr.evalArgsM (Evaluation.record size version n) es

private theorem run_getThe_bind (f : State → Recorded α) (log : List CellRef) (s : State) :
    ((getThe State >>= f).run log).run s = ((f s).run log).run s :=
  rfl

section Visit

variable {version : Nat} {look : Grid → CellRef → Lookup} {compute : Expr → Recorded Value}
  {c : CellRef} {e : Expr} {v : Value} {s s' : State} {log log' : List CellRef}

/-- A cell whose value is known is not entered. -/
theorem run_visit_of_known (h : look s.grid c = .known v) :
    ((visit version look note compute c).run log).run s = some ((v, log), s) := by
  rw [visit, run_getThe_bind, h]
  rfl

/-- A cell on the trail is not entered. -/
theorem run_visit_of_refused (h : look s.grid c = .stale e) (hc : s.trail.enter? c = none) :
    ((visit version look note compute c).run log).run s = some ((.error .cycle, log), s) := by
  rw [visit, run_getThe_bind, h]
  simp only [hc]
  rfl

/-- Any other cell is entered, and its formula is computed. -/
theorem run_visit_of_entered {trail : Trail} (h : look s.grid c = .stale e)
    (hc : s.trail.enter? c = some trail)
    (he : ((compute e).run (log ++ [c])).run ⟨s.grid, trail⟩ = some ((v, log'), s')) :
    ((visit version look note compute c).run log).run s =
      some ((v, log'), ⟨s'.grid.remember c v version, s'.trail.leave c⟩) := by
  rw [visit, run_getThe_bind, h]
  simp only [hc]
  change (((compute e).run (log ++ [c])).run ⟨s.grid, trail⟩).bind _ = _
  rw [he]
  rfl

end Visit

/-! ### What computing formulas makes of a grid -/

/-- The grid `g` becomes `g'` when the formulas of the cells `entered` are computed at `version`:
each of them once, for want of a value that counts, and nothing else happens. -/
structure Recomputed (version : Nat) (g : Grid) (entered : List CellRef) (g' : Grid) : Prop where
  nodup : entered.Nodup
  /-- The formula of a cell that was entered had no value that counts, and has one now. -/
  stamped : ∀ c ∈ entered, ∃ f v, g[c]? = some (.formula f) ∧ f.cached? version = none ∧
    g'[c]? = some (.formula { f with memo := some ⟨v, version⟩ })
  kept : ∀ c : CellRef, c ∉ entered → g'[c]? = g[c]?

namespace Recomputed

variable {version : Nat} {g g₁ g₂ : Grid} {entered later : List CellRef}

theorem refl (version : Nat) (g : Grid) : Recomputed version g [] g :=
  ⟨List.nodup_nil, fun _ hc => absurd hc List.not_mem_nil, fun _ _ => rfl⟩

/-- A cell for which a value counts is not entered, and stays as it is. -/
theorem getElem?_of_remembers (h : Recomputed version g entered g₁) {c : CellRef} {v : Value}
    (hv : g.Remembers version c v) : c ∉ entered ∧ g₁[c]? = g[c]? := by
  have hc : c ∉ entered := by
    intro hc
    obtain ⟨f, hf, hcached⟩ := hv
    obtain ⟨f', -, hf', hnone, -⟩ := h.stamped c hc
    cases hf.symm.trans hf'
    cases hcached.symm.trans hnone
  exact ⟨hc, h.kept c hc⟩

/-- What was computed first is not computed later. -/
theorem notMem_later (h : Recomputed version g entered g₁) (h' : Recomputed version g₁ later g₂)
    {c : CellRef} (hc : c ∈ entered) : c ∉ later := by
  obtain ⟨f, v, -, -, hf⟩ := h.stamped c hc
  have hv : g₁.Remembers version c v := ⟨_, hf, if_pos rfl⟩
  exact (h'.getElem?_of_remembers hv).1

theorem trans (h : Recomputed version g entered g₁) (h' : Recomputed version g₁ later g₂) :
    Recomputed version g (entered ++ later) g₂ where
  nodup := by
    refine List.nodup_append.2 ⟨h.nodup, h'.nodup, ?_⟩
    rintro c hc _ hc' rfl
    exact h.notMem_later h' hc hc'
  stamped c hc := by
    by_cases hc' : c ∈ later
    · have hkept : g₁[c]? = g[c]? := h.kept c fun hfirst => h.notMem_later h' hfirst hc'
      rw [← hkept]
      exact h'.stamped c hc'
    · rw [h'.kept c hc']
      exact h.stamped c ((List.mem_append.1 hc).resolve_right hc')
  kept c hc := by
    rw [List.mem_append, not_or] at hc
    exact (h'.kept c hc.2).trans (h.kept c hc.1)

/-- The formula of one cell more is computed, after those that were computed on its account. -/
theorem enter (h : Recomputed version g entered g₁) {c : CellRef} (hc : c ∉ entered) {f : Formula}
    (hf : g[c]? = some (.formula f)) (hnone : f.cached? version = none) (v : Value) :
    Recomputed version g (c :: entered) (g₁.remember c v version) where
  nodup := List.nodup_cons.2 ⟨hc, h.nodup⟩
  stamped a ha := by
    rw [Grid.getElem?_remember]
    by_cases hac : a = c
    · subst hac
      refine ⟨f, v, hf, hnone, ?_⟩
      rw [if_pos rfl, h.kept a hc, hf]
      rfl
    · rw [if_neg hac]
      exact h.stamped a (List.mem_of_ne_of_mem hac ha)
  kept a ha := by
    rw [List.mem_cons, not_or] at ha
    rw [Grid.getElem?_remember, if_neg ha.1]
    exact h.kept a ha.2

/-- Computing formulas changes no contents. -/
theorem contents_eq (h : Recomputed version g entered g₁) : g₁.contents = g.contents := by
  rw [Grid.contents_eq_iff]
  intro c
  by_cases hc : c ∈ entered
  · obtain ⟨f, v, hf, -, hf'⟩ := h.stamped c hc
    rw [hf, hf']
    rfl
  · rw [h.kept c hc]

end Recomputed

/-! ### Evaluations with a journal -/

variable {size : Size} {version : Nat}

/-- The journal of an evaluation tells what became of the grid. It names no cell of the trail: a
cell that is being computed is not entered again. -/
theorem Runs.exists_record {t : Task} {s s' : State} {r : t.Result}
    (h : Runs size version t s r s') :
    ∃ entered, Recomputed version s.grid entered s'.grid ∧ (∀ c ∈ entered, c ∉ s.trail.cells) ∧
      ∀ n, room s ≤ n → ∀ log,
        ((t.record size version n).run log).run s = some ((r, log ++ entered), s') := by
  have hvisit : ∀ n, ∃ compute,
      Evaluation.record size version n = visit version (lookup size version) note compute := by
    intro n
    cases n with
    | zero => exact ⟨_, rfl⟩
    | succ n => exact ⟨_, rfl⟩
  induction h with
  | @known c v s hl =>
    refine ⟨[], .refl _ _, by simp, fun n _ log => ?_⟩
    obtain ⟨compute, hcompute⟩ := hvisit n
    rw [Task.record, hcompute, List.append_nil]
    exact run_visit_of_known hl
  | @refused c e s hl hc =>
    refine ⟨[], .refl _ _, by simp, fun n _ log => ?_⟩
    obtain ⟨compute, hcompute⟩ := hvisit n
    rw [Task.record, hcompute, List.append_nil]
    exact run_visit_of_refused hl hc
  | @entered c e v s s' trail hl hc _ ih =>
    obtain ⟨entered, hgrid, hoff, hrun⟩ := ih
    obtain ⟨-, f, hf, hnone, -⟩ := exists_formula_of_stale hl
    obtain ⟨hctrail, rfl⟩ := (Trail.enter?_eq_some_iff _ _ _).1 hc
    have hcentered : c ∉ entered := fun hmem => hoff c hmem List.mem_cons_self
    refine ⟨c :: entered, hgrid.enter hcentered hf hnone v, ?_, fun n hn log => ?_⟩
    · intro a ha
      rcases List.mem_cons.1 ha with rfl | ha
      · exact hctrail
      · exact fun hmem => hoff a ha (List.mem_cons_of_mem c hmem)
    · -- there is room for the cell that is entered, so there is fuel for it
      have hless := room_lt_of_enter? (Grid.mem_formulaCells.2 ⟨f, hf⟩) hc
      obtain ⟨n, rfl⟩ := Nat.exists_eq_add_one_of_ne_zero (by omega : n ≠ 0)
      have hinner := hrun n (by omega) (log ++ [c])
      rw [List.append_assoc, List.singleton_append] at hinner
      exact run_visit_of_entered hl hc hinner
  | constant => exact ⟨[], .refl _ _, by simp, fun n _ log => by simp [Task.record, Expr.evalM]⟩
  | ref _ ih => exact ih
  | binary hl _ ihl ihr =>
    obtain ⟨first, hfirst, hoffFirst, hx⟩ := ihl
    obtain ⟨second, hsecond, hoffSecond, hy⟩ := ihr
    rw [hl.trail_eq] at hoffSecond
    refine ⟨first ++ second, hfirst.trans hsecond, ?_, fun n hn log => ?_⟩
    · exact fun c hc => (List.mem_append.1 hc).elim (hoffFirst c) (hoffSecond c)
    · have hxn := hx n hn log
      have hyn := hy n (hl.room_eq ▸ hn) (log ++ first)
      simp only [Task.record] at hxn hyn
      simp [Task.record, Expr.evalM, hxn, hyn]
  | unknown hf =>
    exact ⟨[], .refl _ _, by simp, fun n _ log => by simp [Task.record, Expr.evalM, hf]⟩
  | called hf _ ih | calledError hf _ ih =>
    obtain ⟨entered, hgrid, hoff, hrun⟩ := ih
    refine ⟨entered, hgrid, hoff, fun n hn log => ?_⟩
    have hargs := hrun n hn log
    simp only [Task.record] at hargs
    simp [Task.record, Expr.evalM, hf, hargs]
  | noArgs => exact ⟨[], .refl _ _, by simp, fun n _ log => by simp [Task.record, Expr.evalArgsM]⟩
  | argError _ ih =>
    obtain ⟨entered, hgrid, hoff, hrun⟩ := ih
    refine ⟨entered, hgrid, hoff, fun n hn log => ?_⟩
    have hx := hrun n hn log
    simp only [Task.record] at hx
    simp [Task.record, Expr.evalArgsM, hx]
  | arg he _ ihe ihs =>
    obtain ⟨first, hfirst, hoffFirst, hx⟩ := ihe
    obtain ⟨rest, hrest, hoffRest, hxs⟩ := ihs
    rw [he.trail_eq] at hoffRest
    refine ⟨first ++ rest, hfirst.trans hrest, ?_, fun n hn log => ?_⟩
    · exact fun c hc => (List.mem_append.1 hc).elim (hoffFirst c) (hoffRest c)
    · have hxn := hx n hn log
      have hxsn := hxs n (he.room_eq ▸ hn) (log ++ first)
      simp only [Task.record] at hxn hxsn
      simp [Task.record, Expr.evalArgsM, hxn, hxsn]

/-! ### Calls -/

/-- What can be asked of a grid. -/
inductive Call where
  /-- The value of a cell, wherever it lies. -/
  | stored (c : CellRef)
  /-- The value of a cell of the sheet. -/
  | cell (c : CellRef)
  /-- The value of an expression. -/
  | expr (e : Expr)

namespace Call

/-- The answer to a call. -/
def eval (size : Size) (version n : Nat) : Call → Eval Value
  | stored c => visit version (lookupStored version) (fun _ => pure ())
      (fun e => e.evalM (resolve size version n)) c
  | cell c => resolve size version n c
  | expr e => e.evalM (resolve size version n)

/-- The answer to a call, with a journal. -/
def record (size : Size) (version n : Nat) : Call → Recorded Value
  | stored c => visit version (lookupStored version) note
      (fun e => e.evalM (Evaluation.record size version n)) c
  | cell c => Evaluation.record size version n c
  | expr e => e.evalM (Evaluation.record size version n)

end Call

/-- Calls one after the other at one version, each on a trail of its own: the journal of all of them
and the grid they leave behind. -/
def recordAll (size : Size) (version : Nat) :
    List (Trail × Call) → Grid → Option (List CellRef × Grid)
  | [], g => some ([], g)
  | (trail, call) :: calls, g => do
    let ((_, entered), s) ← ((call.record size version (fuel ⟨g, trail⟩)).run []).run ⟨g, trail⟩
    let (later, g') ← recordAll size version calls s.grid
    return (entered ++ later, g')

/-! ### Every call at most once -/

/-- A call has an answer, its journal tells what became of the grid, and to keep the journal changes
nothing else. -/
theorem Call.exists_record (size : Size) (version : Nat) (call : Call) (s : State) :
    ∃ v s' entered, (call.eval size version (fuel s)).run s = some (v, s') ∧
      ((call.record size version (fuel s)).run []).run s = some ((v, entered), s') ∧
      Recomputed version s.grid entered s'.grid := by
  have hfuel : room s ≤ fuel s := Nat.le_succ _
  cases call with
  | stored c =>
    cases hl : lookupStored version s.grid c with
    | known v =>
      refine ⟨v, s, [], ?_, run_visit_of_known hl, .refl _ _⟩
      simp [eval, visit, hl]
    | stale e =>
      cases hc : s.trail.enter? c with
      | none =>
        refine ⟨.error .cycle, s, [], ?_, run_visit_of_refused hl hc, .refl _ _⟩
        simp [eval, visit, hl, hc]
      | some trail =>
        obtain ⟨f, hf, hnone, -⟩ := exists_formula_of_lookupStored hl
        have hless := room_lt_of_enter? (Grid.mem_formulaCells.2 ⟨f, hf⟩) hc
        obtain ⟨v, s', hrun⟩ := exists_runs size version (.expr e) ⟨s.grid, trail⟩
        obtain ⟨entered, hgrid, hoff, hrecord⟩ := hrun.exists_record
        have hentered : c ∉ entered := by
          obtain ⟨-, rfl⟩ := (Trail.enter?_eq_some_iff _ _ _).1 hc
          exact fun hmem => hoff c hmem List.mem_cons_self
        have heval := hrun.run_eval (n := fuel s) (by omega)
        have hjournal := hrecord (fuel s) (by omega) [c]
        refine ⟨v, _, c :: entered, ?_, run_visit_of_entered hl hc hjournal,
          hgrid.enter hentered hf hnone v⟩
        simp only [Task.eval] at heval
        simp [eval, visit, hl, hc, heval]
  | cell c =>
    obtain ⟨v, s', hrun⟩ := exists_runs size version (.cell c) s
    obtain ⟨entered, hgrid, -, hrecord⟩ := hrun.exists_record
    exact ⟨v, s', entered, hrun.run_eval hfuel, hrecord _ hfuel [], hgrid⟩
  | expr e =>
    obtain ⟨v, s', hrun⟩ := exists_runs size version (.expr e) s
    obtain ⟨entered, hgrid, -, hrecord⟩ := hrun.exists_record
    exact ⟨v, s', entered, hrun.run_eval hfuel, hrecord _ hfuel [], hgrid⟩

/-- The journal of several calls tells what became of the grid. -/
theorem exists_recordAll (size : Size) (version : Nat) (calls : List (Trail × Call)) (g : Grid) :
    ∃ entered g', recordAll size version calls g = some (entered, g') ∧
      Recomputed version g entered g' := by
  induction calls generalizing g with
  | nil => exact ⟨[], g, rfl, .refl version g⟩
  | cons first calls ih =>
    obtain ⟨v, s, entered, -, hrecord, hfirst⟩ := first.2.exists_record size version ⟨g, first.1⟩
    obtain ⟨later, g', hcalls, hlater⟩ := ih s.grid
    exact ⟨entered ++ later, g', by simp [recordAll, hrecord, hcalls], hfirst.trans hlater⟩

/-- **Each formula is computed once.** Whatever a grid holds and remembers, a call on any trail has
an answer, and with a journal it has the same one. The contents of the grid stay as they are, and so
does every value that counts. What does change is what the cells in the journal remember: they are
formula cells for which nothing counted, and the value that they remember now counts. Over any calls
at one version no cell is entered in the journal twice. -/
theorem formulas_computed_once (size : Size) (version : Nat) :
    (∀ (call : Call) (s : State), ∃ v s' entered,
      (call.eval size version (fuel s)).run s = some (v, s') ∧
        ((call.record size version (fuel s)).run []).run s = some ((v, entered), s') ∧
        s'.grid.contents = s.grid.contents ∧
        (∀ (c : CellRef) (w : Value), s.grid.Remembers version c w →
          s'.grid[c]? = s.grid[c]?) ∧
        Recomputed version s.grid entered s'.grid) ∧
      ∀ (calls : List (Trail × Call)) (g : Grid), ∃ entered g',
        recordAll size version calls g = some (entered, g') ∧ Recomputed version g entered g' := by
  refine ⟨fun call s => ?_, exists_recordAll size version⟩
  obtain ⟨v, s', entered, heval, hrecord, hgrid⟩ := call.exists_record size version s
  exact ⟨v, s', entered, heval, hrecord, hgrid.contents_eq,
    fun _ _ hw => (hgrid.getElem?_of_remembers hw).2, hgrid⟩

end Evaluation

end FormulaSheet
