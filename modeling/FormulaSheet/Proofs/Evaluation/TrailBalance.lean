import FormulaSheet.Proofs.Evaluation.Fuel

/-!
# Evaluation gives the trail back

A formula cell is put on the trail while its formula is computed and taken off afterwards. Between
these two steps evaluation can end early in many ways: a value is known, a cell is refused, an
argument fails. Whichever way it ends, the trail is the one it was before. This holds by the rules
of `Evaluation.Runs`, and what the evaluator gives, however little fuel it has, the rules give too.

## Main results

* `Evaluation.Task.runs_of_run_eval`: what the evaluator gives comes about by the rules.
* `Sheet.trail_given_back`: cells and expressions leave the trail as it was.
-/

namespace FormulaSheet

namespace Evaluation

variable {size : Size} {version : Nat}

/-! ### The evaluator follows the rules -/

/-- What two computations give one after the other, the second gives from where the first ends. -/
theorem exists_of_run_bind {α β : Type} {x : Eval α} {f : α → Eval β} {s : State} {p : β × State}
    (h : (x >>= f).run s = some p) :
    ∃ a s₁, x.run s = some (a, s₁) ∧ (f a).run s₁ = some p := by
  rw [StateT.run_bind] at h
  obtain ⟨⟨a, s₁⟩, hx, hf⟩ := Option.bind_eq_some_iff.1 h
  exact ⟨a, s₁, hx, hf⟩

/-- A value that is given without computation leaves the state as it is. -/
theorem eq_of_run_pure {α : Type} {a b : α} {s s' : State}
    (h : (pure a : Eval α).run s = some (b, s')) : a = b ∧ s = s' := by
  simpa using h

/-- What the look-up `resolve` gives for a cell comes about by the rules. -/
private def IsSound (size : Size) (version : Nat) (resolve : CellRef → Eval Value) : Prop :=
  ∀ c s v s', (resolve c).run s = some (v, s') → Runs size version (.cell c) s v s'

mutual

private theorem runs_of_run_evalM {resolve : CellRef → Eval Value}
    (hres : IsSound size version resolve) : (e : Expr) → (s : State) → (v : Value) → (s' : State) →
    (e.evalM resolve).run s = some (v, s') → Runs size version (.expr e) s v s'
  | .constant x _, s, v, s', h => by
    obtain ⟨rfl, rfl⟩ := eq_of_run_pure h
    exact .constant
  | .ref c _, s, v, s', h => .ref (hres c s v s' h)
  | .binary op l r _, s, v, s', h => by
    obtain ⟨x, s₁, hx, h⟩ := exists_of_run_bind h
    obtain ⟨y, s₂, hy, h⟩ := exists_of_run_bind h
    obtain ⟨rfl, rfl⟩ := eq_of_run_pure h
    exact .binary (runs_of_run_evalM hres l s x s₁ hx) (runs_of_run_evalM hres r s₁ y s₂ hy)
  | .call name args _, s, v, s', h => by
    rw [Expr.evalM] at h
    cases hf : Builtin.find? name with
    | none =>
      rw [hf] at h
      obtain ⟨rfl, rfl⟩ := eq_of_run_pure h
      exact .unknown hf
    | some f =>
      rw [hf] at h
      obtain ⟨r, s₁, hr, h⟩ := exists_of_run_bind h
      have hargs := runs_of_run_evalArgsM hres args s r s₁ hr
      cases r with
      | error err =>
        obtain ⟨rfl, rfl⟩ := eq_of_run_pure h
        exact .calledError hf hargs
      | ok xs =>
        obtain ⟨rfl, rfl⟩ := eq_of_run_pure h
        exact .called hf hargs

private theorem runs_of_run_evalArgsM {resolve : CellRef → Eval Value}
    (hres : IsSound size version resolve) : (es : List Expr) → (s : State) →
    (r : Except EvalError (List Float)) → (s' : State) →
    (Expr.evalArgsM resolve es).run s = some (r, s') → Runs size version (.args es) s r s'
  | [], s, r, s', h => by
    obtain ⟨rfl, rfl⟩ := eq_of_run_pure h
    exact .noArgs
  | e :: es, s, r, s', h => by
    obtain ⟨v, s₁, hv, h⟩ := exists_of_run_bind h
    have he := runs_of_run_evalM hres e s v s₁ hv
    cases v with
    | error err =>
      obtain ⟨rfl, rfl⟩ := eq_of_run_pure h
      exact .argError he
    | number x =>
      obtain ⟨xs, s₂, hxs, h⟩ := exists_of_run_bind h
      obtain ⟨rfl, rfl⟩ := eq_of_run_pure h
      exact .arg he (runs_of_run_evalArgsM hres es s₁ xs s₂ hxs)

end

/-- One cell: nothing is computed, or its formula is, with the cell on the trail. -/
private theorem isSound_resolveWith {compute : Expr → Eval Value}
    (hcompute : ∀ e s v s', (compute e).run s = some (v, s') → Runs size version (.expr e) s v s') :
    IsSound size version (resolveWith size version compute) := by
  intro c s v s' h
  obtain ⟨s₀, s₁, hget, h⟩ := exists_of_run_bind h
  obtain ⟨rfl, rfl⟩ : s = s₀ ∧ s = s₁ := by simpa using hget
  cases hl : lookup size version s.grid c with
  | known w =>
    rw [hl] at h
    obtain ⟨rfl, rfl⟩ := eq_of_run_pure h
    exact .known hl
  | stale e =>
    rw [hl] at h
    cases hc : s.trail.enter? c with
    | none =>
      rw [hc] at h
      obtain ⟨rfl, rfl⟩ := eq_of_run_pure h
      exact .refused hl hc
    | some trail =>
      simp only [hc] at h
      obtain ⟨_, s₁, hset, h⟩ := exists_of_run_bind h
      obtain rfl : ⟨s.grid, trail⟩ = s₁ := by simpa using hset
      obtain ⟨w, s₂, hw, h⟩ := exists_of_run_bind h
      obtain ⟨_, s₃, hmodify, h⟩ := exists_of_run_bind h
      obtain ⟨rfl, rfl⟩ := eq_of_run_pure h
      obtain rfl : ⟨s₂.grid.remember c w version, s₂.trail.leave c⟩ = s₃ := by simpa using hmodify
      exact .entered hl hc (hcompute e _ w s₂ hw)

private theorem isSound_resolve (n : Nat) : IsSound size version (resolve size version n) := by
  induction n with
  | zero => exact isSound_resolveWith fun e s v s' h => by cases h
  | succ n ih => exact isSound_resolveWith (runs_of_run_evalM ih)

/-- What the evaluator gives comes about by the rules, however little fuel it has. -/
theorem Task.runs_of_run_eval {t : Task} {n : Nat} {s s' : State} {r : t.Result}
    (h : (t.eval size version n).run s = some (r, s')) : Runs size version t s r s' := by
  cases t with
  | cell c => exact isSound_resolve n c s r s' h
  | expr e => exact runs_of_run_evalM (isSound_resolve n) e s r s' h
  | args es => exact runs_of_run_evalArgsM (isSound_resolve n) es s r s' h

end Evaluation

/-! ### Reading a sheet -/

namespace Sheet

open Evaluation

/-- **Evaluation gives the trail back.** On every sheet, whatever its formulas refer to and whatever
is remembered, and with any cells on the trail, reading a cell and evaluating an expression end with
the same trail, whether they give a number or an error. So does the evaluator wherever it is started
with some fuel and does not spend it all, for which a unit for each formula cell off the trail is
enough. -/
theorem trail_given_back (s : Sheet) (trail : Trail) :
    (∀ c, ∃ v grid, s.resolve trail c = (v, { s with grid }, trail)) ∧
      (∀ e, ∃ v grid, s.execute trail e = (v, { s with grid }, trail)) ∧
      ∀ (t : Task) (n : Nat),
        (∃ r grid, (t.eval s.size s.version n).run ⟨s.grid, trail⟩ = some (r, ⟨grid, trail⟩)) ∨
          ((t.eval s.size s.version n).run ⟨s.grid, trail⟩ = none ∧
            n < (formulasOffTrail ⟨s.grid, trail⟩).ncard) := by
  refine ⟨fun c => ?_, fun e => ?_, fun t n => ?_⟩
  · obtain ⟨v, s', hv, hrun⟩ := s.exists_runs_resolve trail c
    exact ⟨v, s'.grid, by rw [hv, hrun.trail_eq]⟩
  · obtain ⟨v, s', hv, hrun⟩ := s.exists_runs_execute trail e
    exact ⟨v, s'.grid, by rw [hv, hrun.trail_eq]⟩
  · cases heval : (t.eval s.size s.version n).run ⟨s.grid, trail⟩ with
    | some p =>
      obtain ⟨r, grid, trail'⟩ := p
      obtain rfl : trail' = trail := (Task.runs_of_run_eval heval).trail_eq
      exact Or.inl ⟨r, grid, rfl⟩
    | none =>
      refine Or.inr ⟨rfl, ?_⟩
      by_contra hle
      rw [← room_eq_ncard, not_lt] at hle
      obtain ⟨r, s', hrun⟩ := exists_runs s.size s.version t ⟨s.grid, trail⟩
      rw [hrun.run_eval hle] at heval
      cases heval

end Sheet

end FormulaSheet
