import FormulaSheet.Proofs.Evaluation.Termination

/-!
# Values that count

A remembered value counts as long as the sheet has the version at which it was computed. A formula
is computed only if nothing counts for its cell, and what is computed for it is remembered. So
evaluation never replaces a value that counts, and a formula whose cell was looked at off the trail
has one afterwards, whether it is a number or an error.

## Main definitions

* `Grid.Remembers`: a value that counts for a formula.

## Main results

* `Evaluation.Runs.remembers`: evaluation keeps every value that counts.
* `Evaluation.Runs.remembers_result`: the value of a formula cell counts once it was computed.
-/

namespace FormulaSheet

variable {size : Size} {version : Nat} {c : CellRef} {v : Value}

namespace Grid

variable {g g' : Grid}

/-- The value `v` is remembered for the formula at `c` and counts at `version`. -/
def Remembers (g : Grid) (version : Nat) (c : CellRef) (v : Value) : Prop :=
  ∃ f, g[c]? = some (.formula f) ∧ f.cached? version = some v

theorem Remembers.of_getElem?_eq (h : g.Remembers version c v) (e : g'[c]? = g[c]?) :
    g'.Remembers version c v := by
  rwa [Remembers, e]

/-- A value that is remembered for a formula counts. -/
theorem remembers_remember {f : Formula} (hf : g[c]? = some (.formula f)) (v : Value) :
    (g.remember c v version).Remembers version c v := by
  refine ⟨{ f with memo := some ⟨v, version⟩ }, ?_, ?_⟩
  · rw [getElem?_remember, if_pos rfl, hf]
    rfl
  · simp [Formula.cached?]

/-- What is remembered for one cell does not matter for another. -/
theorem Remembers.remember_of_ne (h : g.Remembers version c v) {a : CellRef} (ha : a ≠ c)
    (w : Value) : (g.remember a w version).Remembers version c v := by
  refine h.of_getElem?_eq ?_
  rw [getElem?_remember, if_neg ha.symm]

end Grid

namespace Evaluation

open Grid

/-- A value that counts is what a look at the cell gives. -/
theorem lookup_of_remembers {g : Grid} (hc : size.contains c = true)
    (h : g.Remembers version c v) : lookup size version g c = .known v := by
  obtain ⟨f, hf, hv⟩ := h
  rw [lookup, if_pos hc, hf]
  simp only [hv]

/-- A cell for which a value counts is not computed. -/
theorem not_remembers_of_stale {g : Grid} {e : Expr} (hl : lookup size version g c = .stale e) :
    ¬ g.Remembers version c v := by
  rintro ⟨f, hf, hv⟩
  obtain ⟨-, f', hf', hnone, -⟩ := exists_formula_of_stale hl
  cases hf.symm.trans hf'
  cases hv.symm.trans hnone

namespace Runs

/-- Evaluation keeps every value that counts. -/
theorem remembers {t : Task} {s s' : State} {r : t.Result} (h : Runs size version t s r s')
    (hs : s.grid.Remembers version c v) : s'.grid.Remembers version c v := by
  refine h.keeps (P := fun g => g.Remembers version c v) hs fun {_ _ a _} w hl hg hg' => ?_
  have ha : a ≠ c := by
    rintro rfl
    exact not_remembers_of_stale hl hg
  exact hg'.remember_of_ne ha w

/-- A cell for which a value counts has this value, and looking at it changes nothing. -/
theorem eq_of_remembers {s s' : State} {w : Value} (h : Runs size version (.cell c) s w s')
    (hc : size.contains c = true) (hs : s.grid.Remembers version c v) : w = v ∧ s' = s := by
  cases h with
  | known hl =>
    rw [lookup_of_remembers hc hs] at hl
    cases hl
    exact ⟨rfl, rfl⟩
  | refused hl => exact absurd hs (not_remembers_of_stale hl)
  | entered hl => exact absurd hs (not_remembers_of_stale hl)

/-- The value of a formula cell off the trail counts afterwards. -/
theorem remembers_result {s s' : State} (h : Runs size version (.cell c) s v s')
    (hc : size.contains c = true) {f : Formula} (hf : s.grid[c]? = some (.formula f))
    (hoff : c ∉ s.trail.cells) : s'.grid.Remembers version c v := by
  cases h with
  | known hl =>
    rw [lookup, if_pos hc, hf] at hl
    cases hv : f.cached? version with
    | none => simp [hv] at hl
    | some w =>
      simp only [hv, Lookup.known.injEq] at hl
      exact ⟨f, hf, hl ▸ hv⟩
  | refused _ hrefused => exact absurd ((Trail.enter?_eq_none_iff _ _).1 hrefused) hoff
  | entered _ _ hrun =>
    -- what is evaluated in between leaves the formula in its place
    obtain ⟨m, hm⟩ := exists_formula_of_contents_eq hrun.contents_eq.symm hf
    exact remembers_remember hm v

end Runs

end Evaluation

end FormulaSheet
