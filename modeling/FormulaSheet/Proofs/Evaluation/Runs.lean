import FormulaSheet.Evaluation
import FormulaSheet.Proofs.Grid.Contents

/-!
# Runs of the evaluator

What the evaluator does is described by rules, one for each way in which a cell, an expression or
the arguments of a call are dealt with. The rules say how the state changes and know no fuel. Every
property that evaluation keeps is an induction on them.

## Main definitions

* `Evaluation.Task`: what is evaluated, with `Evaluation.Task.Result`.
* `Evaluation.Runs`: the rules.

## Main results

* `Evaluation.Runs.trail_eq`: evaluation gives the trail back.
* `Evaluation.Runs.keeps`: evaluation keeps what is kept when the value of a cell is remembered.
* `Evaluation.Runs.contents_eq`: evaluation changes no contents of the grid.
-/

namespace FormulaSheet

/-! ### Steps on a trail -/

namespace Trail

theorem enter?_eq_none_iff (t : Trail) (c : CellRef) : t.enter? c = none ↔ c ∈ t.cells := by
  simp [enter?, contains]

theorem enter?_eq_some_iff (t t' : Trail) (c : CellRef) :
    t.enter? c = some t' ↔ c ∉ t.cells ∧ t' = ⟨c :: t.cells⟩ := by
  by_cases hc : c ∈ t.cells
  · simp [enter?, contains, hc]
  · simp [enter?, contains, hc, eq_comm]

/-- Leaving the cell that was entered last gives the trail back. -/
theorem leave_of_enter? {t t' : Trail} {c : CellRef} (h : t.enter? c = some t') :
    t'.leave c = t := by
  obtain ⟨hc, rfl⟩ := (enter?_eq_some_iff t t' c).1 h
  have hkeep : t.cells.filter (· ≠ c) = t.cells := by
    rw [List.filter_eq_self]
    intro a ha
    have hac : a ≠ c := fun hac => hc (hac ▸ ha)
    simpa using hac
  rw [leave, List.filter_cons_of_neg (by simp), hkeep]

end Trail

namespace Evaluation

/-! ### Rules -/

/-- What is evaluated: a cell, an expression or the arguments of a call. -/
inductive Task where
  | cell (c : CellRef)
  | expr (e : Expr)
  | args (es : List Expr)

/-- What evaluation gives: a value, and for arguments their numbers or the first error. -/
abbrev Task.Result : Task → Type
  | cell _ => Value
  | expr _ => Value
  | args _ => Except EvalError (List Float)

/-- `Runs size version t s r s'` says that the task `t` started in the state `s` gives `r` and ends
in the state `s'`. -/
inductive Runs (size : Size) (version : Nat) : (t : Task) → State → t.Result → State → Prop where
  | known {c v s} (h : lookup size version s.grid c = .known v) :
      Runs size version (.cell c) s v s
  | refused {c e s} (h : lookup size version s.grid c = .stale e)
      (hc : s.trail.enter? c = none) :
      Runs size version (.cell c) s (.error .cycle) s
  | entered {c e v s s' trail} (h : lookup size version s.grid c = .stale e)
      (hc : s.trail.enter? c = some trail)
      (he : Runs size version (.expr e) ⟨s.grid, trail⟩ v s') :
      Runs size version (.cell c) s v ⟨s'.grid.remember c v version, s'.trail.leave c⟩
  | constant {x text s} : Runs size version (.expr (.constant x text)) s (.number x) s
  | ref {c text v s s'} (h : Runs size version (.cell c) s v s') :
      Runs size version (.expr (.ref c text)) s v s'
  | binary {op l r text x y s s₁ s₂} (hl : Runs size version (.expr l) s x s₁)
      (hr : Runs size version (.expr r) s₁ y s₂) :
      Runs size version (.expr (.binary op l r text)) s (op.applyValues x y) s₂
  | unknown {name args text s} (hf : Builtin.find? name = none) :
      Runs size version (.expr (.call name args text)) s (.error .name) s
  | called {name args text f xs s s'} (hf : Builtin.find? name = some f)
      (ha : Runs size version (.args args) s (.ok xs) s') :
      Runs size version (.expr (.call name args text)) s (f.call xs) s'
  | calledError {name args text f err s s'} (hf : Builtin.find? name = some f)
      (ha : Runs size version (.args args) s (.error err) s') :
      Runs size version (.expr (.call name args text)) s (.error err) s'
  | noArgs {s} : Runs size version (.args []) s (.ok []) s
  | argError {e es err s s'} (he : Runs size version (.expr e) s (.error err) s') :
      Runs size version (.args (e :: es)) s (.error err) s'
  | arg {e es x xs s s₁ s₂} (he : Runs size version (.expr e) s (.number x) s₁)
      (hs : Runs size version (.args es) s₁ xs s₂) :
      Runs size version (.args (e :: es)) s (xs.map (x :: ·)) s₂

namespace Runs

variable {size : Size} {version : Nat} {t : Task} {s s' : State} {r : t.Result}

/-- Evaluation gives the trail back. -/
theorem trail_eq (h : Runs size version t s r s') : s'.trail = s.trail := by
  induction h with
  | known | refused | constant | unknown | noArgs => rfl
  | entered h hc _ ih => rw [ih, Trail.leave_of_enter? hc]
  | ref _ ih | called _ _ ih | calledError _ _ ih | argError _ ih => exact ih
  | binary _ _ ihl ihr => rw [ihr, ihl]
  | arg _ _ ihe ihs => rw [ihs, ihe]

/-- The only thing that evaluation does to a grid is to remember values for cells that were looked
at in vain. What this keeps, evaluation keeps. -/
theorem keeps {P : Grid → Prop} (h : Runs size version t s r s') (hs : P s.grid)
    (hP : ∀ {g g' : Grid} {c : CellRef} {e : Expr} (v : Value),
      lookup size version g c = .stale e → P g → P g' → P (g'.remember c v version)) :
    P s'.grid := by
  induction h with
  | known | refused | constant | unknown | noArgs => exact hs
  | entered hl _ _ ih => exact hP _ hl hs (ih hs)
  | ref _ ih | called _ _ ih | calledError _ _ ih | argError _ ih => exact ih hs
  | binary _ _ ihl ihr => exact ihr (ihl hs)
  | arg _ _ ihe ihs => exact ihs (ihe hs)

/-- Evaluation changes nothing but what is remembered. -/
theorem contents_eq (h : Runs size version t s r s') : s'.grid.contents = s.grid.contents :=
  h.keeps (P := fun g => g.contents = s.grid.contents) rfl fun _ _ _ hg =>
    (Grid.contents_remember _ _ _ _).trans hg

end Runs

end Evaluation

end FormulaSheet
