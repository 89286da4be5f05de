import FormulaSheet.Proofs.Evaluation.Termination
import Mathlib.Data.Set.Card

/-!
# Fuel

The evaluator spends fuel on entering formula cells and on nothing else. The rules of
`Evaluation.Runs` know no fuel; what they give is what the evaluator gives as soon as the fuel
covers the formula cells off the trail. Since there are finitely many of these, every evaluation
ends, on every grid and on every trail, and its result depends on the fuel in no other way.

## Main definitions

* `Evaluation.Task.eval`: the evaluator on cells, expressions and arguments.
* `Evaluation.formulasOffTrail`: the formula cells that can still be entered.

## Main results

* `Evaluation.Runs.run_eval`: with enough fuel the evaluator gives what the rules give.
* `Evaluation.evaluation_ends`: every evaluation ends, with a unit of fuel for each formula cell
  off the trail.
-/

namespace FormulaSheet

/-! ### Counting formula cells -/

/-- Every formula cell is listed once. -/
theorem Grid.nodup_formulaCells (g : Grid) : g.formulaCells.Nodup := by
  have hkeys : (g.toList.map Prod.fst).Nodup := by
    rw [Std.ExtTreeMap.map_fst_toList_eq_keys]
    exact Std.ExtTreeMap.nodup_keys
  exact hkeys.sublist (List.filter_sublist.map _)

namespace Evaluation

variable {size : Size} {version : Nat}

/-- The formula cells of a state that are not being computed. -/
def formulasOffTrail (s : State) : Set CellRef :=
  {c | c ∉ s.trail.cells ∧ ∃ f, s.grid[c]? = some (.formula f)}

/-- The room of a state is the number of formula cells off the trail. -/
theorem room_eq_ncard (s : State) : room s = (formulasOffTrail s).ncard := by
  have hset : formulasOffTrail s =
      (s.grid.formulaCells.filter fun c => !s.trail.contains c).toFinset := by
    ext c
    simp [formulasOffTrail, Grid.mem_formulaCells, Trail.contains, and_comm]
  rw [hset, Set.ncard_coe_finset, List.toFinset_card_of_nodup (s.grid.nodup_formulaCells.filter _),
    room]

/-! ### The evaluator -/

/-- The evaluator, with fuel for `n` nested formula cells. -/
def Task.eval (size : Size) (version n : Nat) : (t : Task) → Eval t.Result
  | cell c => resolve size version n c
  | expr e => e.evalM (resolve size version n)
  | args es => Expr.evalArgsM (resolve size version n) es

theorem exists_resolve_eq (size : Size) (version n : Nat) :
    ∃ compute, resolve size version n = resolveWith size version compute := by
  cases n with
  | zero => exact ⟨_, rfl⟩
  | succ n => exact ⟨_, rfl⟩

/-- With fuel for all the formula cells off the trail the evaluator gives what the rules give. -/
theorem Runs.run_eval {t : Task} {s s' : State} {r : t.Result} (h : Runs size version t s r s')
    {n : Nat} (hn : room s ≤ n) : (t.eval size version n).run s = some (r, s') := by
  induction h generalizing n with
  | known hl =>
    obtain ⟨compute, hresolve⟩ := exists_resolve_eq size version n
    simp [Task.eval, hresolve, resolveWith, hl]
  | refused hl hc =>
    obtain ⟨compute, hresolve⟩ := exists_resolve_eq size version n
    simp [Task.eval, hresolve, resolveWith, hl, hc]
  | entered hl hc _ ih =>
    -- there is room for the cell that is entered, so there is fuel for it
    obtain ⟨-, f, hf, -⟩ := exists_formula_of_stale hl
    have hless := room_lt_of_enter? (Grid.mem_formulaCells.2 ⟨f, hf⟩) hc
    obtain ⟨n, rfl⟩ := Nat.exists_eq_add_one_of_ne_zero (by omega : n ≠ 0)
    have hrun := ih (n := n) (by omega)
    simp only [Task.eval] at hrun
    simp [Task.eval, resolve, resolveWith, hl, hc, hrun]
  | constant => simp [Task.eval, Expr.evalM]
  | ref _ ih => simpa [Task.eval, Expr.evalM] using ih hn
  | binary hl _ ihl ihr =>
    have hx := ihl hn
    have hy := ihr (hl.room_eq ▸ hn)
    simp only [Task.eval] at hx hy
    simp [Task.eval, Expr.evalM, hx, hy]
  | unknown hf => simp [Task.eval, Expr.evalM, hf]
  | called hf _ ih | calledError hf _ ih =>
    have hargs := ih hn
    simp only [Task.eval] at hargs
    simp [Task.eval, Expr.evalM, hf, hargs]
  | noArgs => simp [Task.eval, Expr.evalArgsM]
  | argError _ ih =>
    have hx := ih hn
    simp only [Task.eval] at hx
    simp [Task.eval, Expr.evalArgsM, hx]
  | arg he _ ihe ihs =>
    have hx := ihe hn
    have hxs := ihs (he.room_eq ▸ hn)
    simp only [Task.eval] at hx hxs
    simp [Task.eval, Expr.evalArgsM, hx, hxs]

/-- A task has at most one result by the rules: the one that the evaluator gives. -/
theorem Runs.unique {t : Task} {s s₁ s₂ : State} {r₁ r₂ : t.Result}
    (h₁ : Runs size version t s r₁ s₁) (h₂ : Runs size version t s r₂ s₂) :
    r₁ = r₂ ∧ s₁ = s₂ := by
  have heq := (h₁.run_eval (Nat.le_refl _)).symm.trans (h₂.run_eval (Nat.le_refl _))
  simpa using heq

/-- Every task has a result by the rules. -/
theorem exists_runs (size : Size) (version : Nat) (t : Task) (s : State) :
    ∃ r s', Runs size version t s r s' := by
  have hroom : room s ≤ room s := Nat.le_refl _
  cases t with
  | cell c =>
    obtain ⟨v, s', -, hrun⟩ := exists_run_resolve hroom c
    exact ⟨v, s', hrun⟩
  | expr e =>
    obtain ⟨v, s', -, hrun⟩ := exists_run_evalM hroom e
    exact ⟨v, s', hrun⟩
  | args es =>
    obtain ⟨r, s', -, hrun⟩ := exists_run_evalArgsM hroom es
    exact ⟨r, s', hrun⟩

/-- **Evaluation ends.** On every grid, whatever its formulas refer to and whatever is remembered,
and on every trail, each task has exactly one result by the rules, and the evaluator gives it when
there is a unit of fuel for each formula cell off the trail; more fuel makes no difference. -/
theorem evaluation_ends (size : Size) (version : Nat) (t : Task) (s : State) :
    ∃ r s', (∀ r₁ s₁, Runs size version t s r₁ s₁ ↔ r₁ = r ∧ s₁ = s') ∧
      ∀ spare, (t.eval size version ((formulasOffTrail s).ncard + spare)).run s = some (r, s') := by
  obtain ⟨r, s', hrun⟩ := exists_runs size version t s
  refine ⟨r, s', fun r₁ s₁ => ⟨fun h₁ => h₁.unique hrun, ?_⟩, fun spare => ?_⟩
  · rintro ⟨rfl, rfl⟩
    exact hrun
  · rw [← room_eq_ncard]
    exact hrun.run_eval (Nat.le_add_right _ _)

end Evaluation

end FormulaSheet
