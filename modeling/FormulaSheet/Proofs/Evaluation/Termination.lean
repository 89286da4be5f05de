import FormulaSheet.Sheet
import FormulaSheet.Proofs.Evaluation.Runs

/-!
# Evaluation ends

A formula cell is entered only while it is off the trail, and it stays on the trail until its value
is known. So the number of formula cells off the trail bounds how deep evaluation can nest, whatever
the references are. With one unit of fuel for each of these cells every evaluation ends, and it ends
as the rules of `Evaluation.Runs` say.

## Main definitions

* `Evaluation.room`: the number of formula cells off the trail.

## Main results

* `Evaluation.exists_run_resolve`, `Evaluation.exists_run_evalM`: evaluation with enough fuel
  follows the rules.
* `Sheet.exists_runs_resolve`, `Sheet.exists_runs_execute`: so does reading a sheet.
-/

namespace FormulaSheet

/-! ### Formula cells -/

namespace Grid

theorem mem_formulaCells {g : Grid} {c : CellRef} :
    c ∈ g.formulaCells ↔ ∃ f, g[c]? = some (.formula f) := by
  simp only [formulaCells, List.mem_map, List.mem_filter, Prod.exists]
  constructor
  · rintro ⟨a, k, ⟨hmem, hk⟩, rfl⟩
    rw [Std.ExtTreeMap.mem_toList_iff_getElem?_eq_some] at hmem
    cases k with
    | formula f => exact ⟨f, hmem⟩
    | empty | number | text => simp [Cell.isFormula] at hk
  · rintro ⟨f, hf⟩
    exact ⟨c, .formula f, ⟨Std.ExtTreeMap.mem_toList_iff_getElem?_eq_some.2 hf, rfl⟩, rfl⟩

/-- Which cells hold formulas is a matter of the contents. -/
theorem formulaCells_contents (g : Grid) : g.contents.formulaCells = g.formulaCells := by
  have hforget : ∀ k : Cell, k.forget.isFormula = k.isFormula := by
    intro k
    cases k <;> rfl
  simp [formulaCells, contents, Std.ExtTreeMap.toList_map, List.filter_map, Function.comp_def,
    hforget]

end Grid

namespace Evaluation

variable {size : Size} {version : Nat}

/-! ### Room -/

/-- The number of formula cells off the trail. -/
def room (s : State) : Nat :=
  (s.grid.formulaCells.filter fun c => !s.trail.contains c).length

theorem fuel_eq (s : State) : fuel s = room s + 1 :=
  rfl

/-- Evaluation leaves as much room as there was. -/
theorem Runs.room_eq {t : Task} {s s' : State} {r : t.Result} (h : Runs size version t s r s') :
    room s' = room s := by
  rw [room, room, h.trail_eq, ← Grid.formulaCells_contents, h.contents_eq,
    Grid.formulaCells_contents]

theorem exists_formula_of_stale {g : Grid} {c : CellRef} {e : Expr}
    (h : lookup size version g c = .stale e) :
    size.contains c = true ∧
      ∃ f, g[c]? = some (.formula f) ∧ f.cached? version = none ∧ f.expr = e := by
  rw [lookup] at h
  split_ifs at h with hc
  split at h
  · cases h
  · next f hf =>
    split at h
    · cases h
    · next hn => exact ⟨hc, f, hf, hn, Lookup.stale.inj h⟩
  · cases h
  · cases h
  · cases h

/-- Entering a formula cell takes up room. -/
theorem room_lt_of_enter? {s : State} {c : CellRef} {trail : Trail}
    (h : c ∈ s.grid.formulaCells) (hc : s.trail.enter? c = some trail) :
    room ⟨s.grid, trail⟩ < room s := by
  obtain ⟨hoff, rfl⟩ := (Trail.enter?_eq_some_iff _ _ _).1 hc
  -- the cells off the longer trail are those off the shorter one, without `c`
  have hfilter : s.grid.formulaCells.filter (fun a => !Trail.contains ⟨c :: s.trail.cells⟩ a) =
      (s.grid.formulaCells.filter fun a => !s.trail.contains a).filter
        fun a => !decide (a = c) := by
    rw [List.filter_filter]
    apply List.filter_congr
    intro a _
    simp [Trail.contains]
  rw [room, room, hfilter, List.length_filter_lt_length_iff_exists]
  refine ⟨c, List.mem_filter.2 ⟨h, ?_⟩, by simp⟩
  simpa [Trail.contains] using hoff

/-! ### Enough fuel -/

/-- The look-up `resolve` of cells follows the rules in every state with room at most `n`. -/
private def Follows (size : Size) (version n : Nat) (resolve : CellRef → Eval Value) : Prop :=
  ∀ c s, room s ≤ n → ∃ v s', (resolve c).run s = some (v, s') ∧ Runs size version (.cell c) s v s'

mutual

private theorem evalM_runs {n : Nat} {resolve : CellRef → Eval Value}
    (hres : Follows size version n resolve) (s : State) (hs : room s ≤ n) : (e : Expr) →
    ∃ v s', (e.evalM resolve).run s = some (v, s') ∧ Runs size version (.expr e) s v s'
  | .constant x _ => ⟨.number x, s, by simp [Expr.evalM], .constant⟩
  | .ref c _ => by
    obtain ⟨v, s', hv, hrun⟩ := hres c s hs
    exact ⟨v, s', by simpa [Expr.evalM] using hv, .ref hrun⟩
  | .binary op l r _ => by
    obtain ⟨x, s₁, hx, hl⟩ := evalM_runs hres s hs l
    obtain ⟨y, s₂, hy, hr⟩ := evalM_runs hres s₁ (hl.room_eq ▸ hs) r
    exact ⟨op.applyValues x y, s₂, by simp [Expr.evalM, hx, hy], .binary hl hr⟩
  | .call name args _ => by
    cases hf : Builtin.find? name with
    | none => exact ⟨.error .name, s, by simp [Expr.evalM, hf], .unknown hf⟩
    | some f =>
      obtain ⟨r, s', hr, ha⟩ := evalArgsM_runs hres s hs args
      cases r with
      | error err => exact ⟨.error err, s', by simp [Expr.evalM, hf, hr], .calledError hf ha⟩
      | ok xs => exact ⟨f.call xs, s', by simp [Expr.evalM, hf, hr], .called hf ha⟩

private theorem evalArgsM_runs {n : Nat} {resolve : CellRef → Eval Value}
    (hres : Follows size version n resolve) (s : State) (hs : room s ≤ n) : (es : List Expr) →
    ∃ r s', (Expr.evalArgsM resolve es).run s = some (r, s') ∧ Runs size version (.args es) s r s'
  | [] => ⟨.ok [], s, by simp [Expr.evalArgsM], .noArgs⟩
  | e :: es => by
    obtain ⟨v, s₁, hv, he⟩ := evalM_runs hres s hs e
    cases v with
    | error err => exact ⟨.error err, s₁, by simp [Expr.evalArgsM, hv], .argError he⟩
    | number x =>
      obtain ⟨r, s₂, hr, hs⟩ := evalArgsM_runs hres s₁ (he.room_eq ▸ hs) es
      exact ⟨r.map (x :: ·), s₂, by simp [Expr.evalArgsM, hv, hr], .arg he hs⟩

end

/-- One cell: nothing is computed, or its formula is, in a state with less room. -/
private theorem resolveWith_runs {n : Nat} {compute : Expr → Eval Value} {c : CellRef} {s : State}
    (hs : room s ≤ n)
    (hcompute : ∀ e s', room s' < n →
      ∃ v s'', (compute e).run s' = some (v, s'') ∧ Runs size version (.expr e) s' v s'') :
    ∃ v s', (resolveWith size version compute c).run s = some (v, s') ∧
      Runs size version (.cell c) s v s' := by
  cases hl : lookup size version s.grid c with
  | known v => exact ⟨v, s, by simp [resolveWith, hl], .known hl⟩
  | stale e =>
    cases hc : s.trail.enter? c with
    | none => exact ⟨.error .cycle, s, by simp [resolveWith, hl, hc], .refused hl hc⟩
    | some trail =>
      obtain ⟨-, f, hf, -⟩ := exists_formula_of_stale hl
      have hless := room_lt_of_enter? (Grid.mem_formulaCells.2 ⟨f, hf⟩) hc
      obtain ⟨v, s', hv, hrun⟩ := hcompute e ⟨s.grid, trail⟩ (Nat.lt_of_lt_of_le hless hs)
      exact ⟨v, ⟨s'.grid.remember c v version, s'.trail.leave c⟩,
        by simp [resolveWith, hl, hc, hv], .entered hl hc hrun⟩

private theorem follows_resolve (n : Nat) : Follows size version n (resolve size version n) := by
  induction n with
  | zero => exact fun c s hs => resolveWith_runs hs fun e s' h => absurd h (Nat.not_lt_zero _)
  | succ n ih =>
    exact fun c s hs => resolveWith_runs hs fun e s' h => evalM_runs ih s' (Nat.le_of_lt_succ h) e

/-- Fuel for all the cells off the trail is enough to resolve any cell. -/
theorem exists_run_resolve {n : Nat} {s : State} (h : room s ≤ n) (c : CellRef) :
    ∃ v s', (resolve size version n c).run s = some (v, s') ∧ Runs size version (.cell c) s v s' :=
  follows_resolve n c s h

/-- Fuel for all the cells off the trail is enough to evaluate any expression. -/
theorem exists_run_evalM {n : Nat} {s : State} (h : room s ≤ n) (e : Expr) :
    ∃ v s', (e.evalM (resolve size version n)).run s = some (v, s') ∧
      Runs size version (.expr e) s v s' :=
  evalM_runs (follows_resolve n) s h e

/-- Fuel for all the cells off the trail is enough to evaluate the arguments of any call. -/
theorem exists_run_evalArgsM {n : Nat} {s : State} (h : room s ≤ n) (es : List Expr) :
    ∃ r s', (Expr.evalArgsM (resolve size version n) es).run s = some (r, s') ∧
      Runs size version (.args es) s r s' :=
  evalArgsM_runs (follows_resolve n) s h es

end Evaluation

/-! ### Reading a sheet -/

namespace Sheet

open Evaluation

/-- The value of a cell comes about by the rules, whatever is being computed. -/
theorem exists_runs_resolve (s : Sheet) (t : Trail) (c : CellRef) :
    ∃ v s', s.resolve t c = (v, { s with grid := s'.grid }, s'.trail) ∧
      Runs s.size s.version (.cell c) ⟨s.grid, t⟩ v s' := by
  have hfuel := Nat.le_succ (room ⟨s.grid, t⟩)
  obtain ⟨v, s', hv, hrun⟩ : ∃ v s',
      (Evaluation.resolve s.size s.version _ c).run ⟨s.grid, t⟩ = some (v, s') ∧
        Runs s.size s.version (.cell c) ⟨s.grid, t⟩ v s' := exists_run_resolve hfuel c
  refine ⟨v, s', ?_, hrun⟩
  simp [resolve, evaluate, Evaluation.run, fuel_eq, hv]

/-- The value of an expression comes about by the rules, whatever is being computed. -/
theorem exists_runs_execute (s : Sheet) (t : Trail) (e : Expr) :
    ∃ v s', s.execute t e = (v, { s with grid := s'.grid }, s'.trail) ∧
      Runs s.size s.version (.expr e) ⟨s.grid, t⟩ v s' := by
  have hfuel := Nat.le_succ (room ⟨s.grid, t⟩)
  obtain ⟨v, s', hv, hrun⟩ : ∃ v s',
      (e.evalM (Evaluation.resolve s.size s.version _)).run ⟨s.grid, t⟩ = some (v, s') ∧
        Runs s.size s.version (.expr e) ⟨s.grid, t⟩ v s' := exists_run_evalM hfuel e
  refine ⟨v, s', ?_, hrun⟩
  simp [execute, evaluate, Evaluation.run, fuel_eq, hv]

/-- The value of a cell comes about by the rules. -/
theorem exists_runs_value (s : Sheet) (c : CellRef) :
    ∃ v s', s.value c = (v, { s with grid := s'.grid }) ∧
      Runs s.size s.version (.cell c) ⟨s.grid, .empty⟩ v s' := by
  obtain ⟨v, s', hv, hrun⟩ := s.exists_runs_resolve .empty c
  exact ⟨v, s', by rw [value, hv], hrun⟩

/-- The value of an expression comes about by the rules. -/
theorem exists_runs_valueOf (s : Sheet) (e : Expr) :
    ∃ v s', s.valueOf e = (v, { s with grid := s'.grid }) ∧
      Runs s.size s.version (.expr e) ⟨s.grid, .empty⟩ v s' := by
  obtain ⟨v, s', hv, hrun⟩ := s.exists_runs_execute .empty e
  exact ⟨v, s', by rw [valueOf, hv], hrun⟩

end Sheet

end FormulaSheet
