import FormulaSheet.Proofs.Evaluation.Runs

/-!
# Versions of remembered values

Values are remembered with the version of the sheet, and versions only grow. So nothing in a grid
was remembered at a later version than the present one, and with a new version all of it is stale.

## Main definitions

* `Grid.StampedUpTo`: everything in a grid was remembered at a version up to a given one.
* `Grid.MemosSatisfy`: what counts at a version satisfies a predicate.

## Main results

* `Evaluation.Runs.stampedUpTo`: evaluation keeps this.
* `Grid.StampedUpTo.cached?_eq_none`: with a later version all of it is stale.
-/

namespace FormulaSheet

namespace Cell

/-- What a cell remembers, if anything, was remembered at a version up to `n`. -/
def StampedUpTo (n : Nat) (k : Cell) : Prop :=
  ∀ (f : Formula) (m : Memo), k = .formula f → f.memo = some m → m.version ≤ n

theorem stampedUpTo_of_forget_eq {n : Nat} {k : Cell} (h : k.forget = k) : k.StampedUpTo n := by
  rintro f m rfl hm
  obtain ⟨hnone, -⟩ := (forget_eq_formula_iff _ _).1 h
  rw [hm] at hnone
  cases hnone

theorem stampedUpTo_remember {n : Nat} (k : Cell) (v : Value) :
    (k.remember v n).StampedUpTo n := by
  intro f m hf hm
  cases k with
  | formula f' =>
    simp only [remember, formula.injEq] at hf
    subst hf
    cases hm
    exact Nat.le_refl n
  | empty | number | text => simp [remember] at hf

/-- An input makes the cell of a formula that is read from a text, or a cell without a formula. -/
theorem ofExpr_or_forall_ne_of_ofInput {input : String} {k : Cell} (h : ofInput input = .ok k) :
    (∃ s e, Expr.parse s = .ok e ∧ k = .ofExpr e) ∨ ∀ f, k ≠ .formula f := by
  have hplain : ∀ cs f, ofPlain cs ≠ .formula f := by
    intro cs f
    rw [ofPlain]
    split
    · nofun
    · split <;> nofun
  rw [ofInput] at h
  split at h
  · cases h
    exact .inr nofun
  · next r _ =>
    rw [ofFormula] at h
    cases hr : Expr.parse (String.ofList r) with
    | error e => simp [hr, Except.map] at h
    | ok e =>
      simp only [hr, Except.map, Except.ok.injEq] at h
      exact .inl ⟨_, e, hr, h.symm⟩
  · cases h
    exact .inr (hplain _)

/-- Every cell that an input makes remembers nothing. -/
theorem forget_of_ofInput {input : String} {k : Cell} (h : ofInput input = .ok k) :
    k.forget = k := by
  obtain ⟨s, e, -, rfl⟩ | hplain := ofExpr_or_forall_ne_of_ofInput h
  · rfl
  · cases k with
    | formula f => exact absurd rfl (hplain f)
    | empty | number | text => rfl

end Cell

namespace Grid

/-- Everything in the grid was remembered at a version up to `n`. -/
def StampedUpTo (n : Nat) (g : Grid) : Prop :=
  ∀ (c : CellRef) (k : Cell), g[c]? = some k → k.StampedUpTo n

variable {n n' : Nat} {g : Grid}

theorem stampedUpTo_empty : StampedUpTo n ∅ := by
  intro c k h
  simp at h

theorem StampedUpTo.mono (h : g.StampedUpTo n) (hn : n ≤ n') : g.StampedUpTo n' :=
  fun c k hk f m hf hm => Nat.le_trans (h c k hk f m hf hm) hn

theorem StampedUpTo.put (h : g.StampedUpTo n) (c : CellRef) {k : Cell} (hk : k.StampedUpTo n) :
    (g.put c k).StampedUpTo n := by
  intro a k' hk'
  obtain ⟨-, rfl, -⟩ | ⟨-, hk'⟩ := of_getElem?_put hk'
  · exact hk
  · exact h a k' hk'

theorem StampedUpTo.erase (h : g.StampedUpTo n) (c : CellRef) : StampedUpTo n (g.erase c) :=
  fun a k hk => h a k (of_getElem?_erase hk).2

theorem StampedUpTo.restore (h : g.StampedUpTo n) (c : CellRef) (state : Option Cell) :
    (g.restore c state).StampedUpTo n := by
  cases state with
  | none => exact h.erase c
  | some k => exact h.put c (Cell.stampedUpTo_of_forget_eq k.forget_forget)

theorem StampedUpTo.remember (h : g.StampedUpTo n) (c : CellRef) (v : Value) :
    (g.remember c v n).StampedUpTo n := by
  intro a k hk
  rw [getElem?_remember] at hk
  split_ifs at hk
  · obtain ⟨k', -, rfl⟩ := Option.map_eq_some_iff.1 hk
    exact Cell.stampedUpTo_remember k' v
  · exact h a k hk

/-- With a later version everything that is remembered is stale. -/
theorem StampedUpTo.cached?_eq_none (h : g.StampedUpTo n) {c : CellRef} {f : Formula}
    (hf : g[c]? = some (.formula f)) (hn : n < n') : f.cached? n' = none := by
  rw [Formula.cached?]
  split
  · next m hm =>
    have hle := h c _ hf f m rfl hm
    exact if_neg (by omega)
  · rfl

/-! ### What is remembered at a version -/

/-- What is remembered at `version` for the formula cells of the sheet satisfies `P`. -/
def MemosSatisfy (P : CellRef → Value → Prop) (size : Size) (version : Nat) (g : Grid) : Prop :=
  ∀ (c : CellRef) (f : Formula) (v : Value), size.contains c = true → g[c]? = some (.formula f) →
    f.cached? version = some v → P c v

variable {P : CellRef → Value → Prop} {size : Size} {version : Nat}

/-- Where nothing is remembered at `version` there is nothing to satisfy. -/
theorem memosSatisfy_of_forall_stale
    (h : ∀ (c : CellRef) (f : Formula), g[c]? = some (.formula f) → f.cached? version = none) :
    g.MemosSatisfy P size version := by
  intro c f v _ hf hv
  rw [h c f hf] at hv
  cases hv

/-- Remembering a value that satisfies `P` keeps what is remembered as it should be. -/
theorem MemosSatisfy.remember (h : g.MemosSatisfy P size version) {c : CellRef} {v : Value}
    (hv : P c v) : (g.remember c v version).MemosSatisfy P size version := by
  intro a f w ha hf hw
  rw [getElem?_remember] at hf
  split_ifs at hf with hac
  · obtain ⟨k, hk, hk'⟩ := Option.map_eq_some_iff.1 hf
    cases k with
    | formula f' =>
      simp only [Cell.remember, Cell.formula.injEq] at hk'
      subst hk'
      simp only [Formula.cached?, if_pos, Option.some.injEq] at hw
      exact hw ▸ hac ▸ hv
    | empty | number | text => simp [Cell.remember] at hk'
  · exact h a f w ha hf hw

/-- What is forgotten need not satisfy anything. -/
theorem MemosSatisfy.forget (h : g.MemosSatisfy P size version) (c : CellRef) :
    (g.forget c).MemosSatisfy P size version := by
  intro a f v ha hf hv
  rw [getElem?_forget] at hf
  split_ifs at hf with hac
  · obtain ⟨k, -, hk⟩ := Option.map_eq_some_iff.1 hf
    have hnone : f.memo = none := by
      cases k with
      | formula f' => cases hk; rfl
      | empty | number | text => cases hk
    rw [Formula.cached?, hnone] at hv
    cases hv
  · exact h a f v ha hf hv

end Grid

namespace Evaluation

/-- What evaluation remembers carries the present version. -/
theorem Runs.stampedUpTo {size : Size} {version : Nat} {t : Task} {s s' : State} {r : t.Result}
    (h : Runs size version t s r s') (hs : s.grid.StampedUpTo version) :
    s'.grid.StampedUpTo version :=
  h.keeps hs fun v _ _ hg => hg.remember _ v

end Evaluation

end FormulaSheet
