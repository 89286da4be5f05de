import FormulaSheet.Proofs.Evaluation.Outcome

/-!
# When evaluation gives what is meant

Up to the first error an evaluation computes only what it needs, so as long as there was no error
each cell on the trail needs the cell being computed. A cell that is on the trail when it is
referred to needs itself then. So it means the cycle error, which is what it gets. After an error
only masked operands are still computed, and their values are lost; but what is remembered on the
way need not be what is meant any more.

## Main definitions

* `Evaluation.MemosExact`: what is remembered is what is meant.

## Main results

* `Evaluation.Runs.eq_denote`: evaluation gives what is meant when what is remembered is what is
  meant.
-/

namespace FormulaSheet

/-- An operator with a number on the left gives a number only if there is one on the right. -/
theorem Operator.exists_number_of_applyValues {op : Operator} {x z : Float} {v : Value}
    (h : op.applyValues (.number x) v = .number z) : ∃ y, v = .number y := by
  cases v with
  | number y => exact ⟨y, rfl⟩
  | error err => cases h

namespace Evaluation

open Grid Relation

variable {size : Size} {version : Nat} {base g : Grid} {c : CellRef} {e : Expr}

/-- What is remembered at `version` is what the cells mean in `base`. -/
def MemosExact (size : Size) (version : Nat) (base g : Grid) : Prop :=
  g.MemosSatisfy (fun c v => v = meaning size base c) size version

/-- The result of a task is not an error. -/
def Task.Succeeds : (t : Task) → t.Result → Prop
  | cell _, v | expr _, v => ∃ x, v = Value.number x
  | args _, r => ∃ xs, r = Except.ok xs

theorem Task.not_succeeds_expr {err : EvalError} : ¬ (expr e).Succeeds (.error err) := by
  rintro ⟨x, hx⟩
  cases hx

theorem Task.not_succeeds_args {es : List Expr} {err : EvalError} :
    ¬ (args es).Succeeds (.error err) := by
  rintro ⟨xs, hxs⟩
  cases hxs

/-- The cells on the trail need what the task needs, unless they mean the cycle error. -/
def Task.NeededBy (size : Size) (base : Grid) (trail : Trail) (t : Task) : Prop :=
  ∀ a ∈ trail.cells, meaning size base a ≠ .error .cycle →
    ∀ b, t.LooksAt (meaning size base) .needed b → TransGen (Needs size base) a b

namespace Task.NeededBy

variable {t t' : Task} {trail : Trail}

theorem mono (h : t.NeededBy size base trail)
    (hlooks : ∀ b, t'.LooksAt (meaning size base) .needed b →
      t.LooksAt (meaning size base) .needed b) : t'.NeededBy size base trail :=
  fun a ha hne b hb => h a ha hne b (hlooks b hb)

/-- The formula of a cell is needed by the cell and by what needs the cell. -/
theorem enter (h : (cell c).NeededBy size base trail) (hs : source size base c = .stale e) :
    (expr e).NeededBy size base ⟨c :: trail.cells⟩ := by
  intro a ha hne b hb
  rcases List.mem_cons.1 ha with rfl | ha
  · exact .single ⟨e, hs, hb⟩
  · exact (h a ha hne c .cell).tail ⟨e, hs, hb⟩

theorem ref {text : String} (h : (expr (.ref c text)).NeededBy size base trail) :
    (cell c).NeededBy size base trail := by
  refine h.mono fun b hb => ?_
  cases hb with
  | cell => exact .ref

end Task.NeededBy

/-- Evaluation gives what is meant when what is remembered is what is meant and what is evaluated is
needed by the cells on the trail. What is remembered is still exact afterwards if there was no
error. -/
theorem Runs.eq_denote_and_memosExact {t : Task} {s s' : State} {r : t.Result}
    (h : Runs size version t s r s') (he : s.grid.contents = base.contents)
    (hg : MemosExact size version base s.grid) (htrail : t.NeededBy size base s.trail) :
    r = t.denote (meaning size base) ∧ (t.Succeeds r → MemosExact size version base s'.grid) := by
  induction h with
  | @known c v s hl =>
    refine ⟨?_, fun _ => hg⟩
    rcases source_or_cached_of_lookup_known he hl with hs | ⟨hc, f, hf, hw⟩
    · exact (meaning_of_known hs).symm
    · exact hg c f v hc hf hw
  | @refused c e s hl hc =>
    refine ⟨?_, fun _ => hg⟩
    by_contra hne
    exact not_transGen_needs_self (Ne.symm hne)
      (htrail c ((Trail.enter?_eq_none_iff _ _).1 hc) (Ne.symm hne) c .cell)
  | @entered c e v s s' trail hl hc hrun ih =>
    obtain ⟨-, rfl⟩ := (Trail.enter?_eq_some_iff _ _ _).1 hc
    obtain ⟨hv, hmemos⟩ := ih he hg (htrail.enter (source_of_lookup_stale he hl))
    have hmeaning : v = meaning size base c := hv.trans (meaning_eq_of_stale he hl).symm
    exact ⟨hmeaning, fun hok => MemosSatisfy.remember (hmemos hok) hmeaning⟩
  | constant => exact ⟨rfl, fun _ => hg⟩
  | ref _ ih => exact ih he hg htrail.ref
  | @binary op l r text x y s s₁ s₂ hl hr ihl ihr =>
    obtain ⟨hx, hmemosl⟩ := ihl he hg (htrail.mono fun _ => .left)
    have hx : x = l.denote (meaning size base) := hx
    rw [Task.denote, Expr.denote_binary, ← hx]
    cases x with
    | error err => exact ⟨rfl, fun hok => absurd hok Task.not_succeeds_expr⟩
    | number x =>
      have hright : (Task.expr r).NeededBy size base s₁.trail :=
        hl.trail_eq ▸ htrail.mono fun _ hb => .right hb fun err herr => by simp [← hx] at herr
      obtain ⟨hy, hmemosr⟩ := ihr (hl.contents_eq.trans he) (hmemosl ⟨x, rfl⟩) hright
      have hy : y = r.denote (meaning size base) := hy
      refine ⟨by rw [hy], fun hok => ?_⟩
      obtain ⟨z, hz⟩ := hok
      exact hmemosr (Operator.exists_number_of_applyValues hz)
  | unknown hf => exact ⟨by rw [Task.denote, Expr.denote, hf], fun _ => hg⟩
  | @called name args text f xs s s' hf ha ih =>
    obtain ⟨hxs, hmemos⟩ := ih he hg (htrail.mono fun _ => .args hf)
    have hxs : .ok xs = Expr.denoteArgs (meaning size base) args := hxs
    exact ⟨by rw [Task.denote, Expr.denote_call hf, ← hxs], fun _ => hmemos ⟨xs, rfl⟩⟩
  | @calledError name args text f err s s' hf ha ih =>
    obtain ⟨herr, -⟩ := ih he hg (htrail.mono fun _ => .args hf)
    have herr : .error err = Expr.denoteArgs (meaning size base) args := herr
    refine ⟨?_, fun hok => absurd hok Task.not_succeeds_expr⟩
    rw [Task.denote, Expr.denote_call hf, ← herr]
  | noArgs => exact ⟨rfl, fun _ => hg⟩
  | @argError e es err s s' hrun ih =>
    obtain ⟨herr, -⟩ := ih he hg (htrail.mono fun _ => .head)
    have herr : .error err = e.denote (meaning size base) := herr
    refine ⟨?_, fun hok => absurd hok Task.not_succeeds_args⟩
    rw [Task.denote, Expr.denoteArgs, ← herr]
  | @arg e es x xs s s₁ s₂ hrun hruns ihe ihs =>
    obtain ⟨hx, hmemose⟩ := ihe he hg (htrail.mono fun _ => .head)
    have hx : .number x = e.denote (meaning size base) := hx
    have htail : (Task.args es).NeededBy size base s₁.trail :=
      hrun.trail_eq ▸ htrail.mono fun _ => .tail hx.symm
    obtain ⟨hxs, hmemoss⟩ := ihs (hrun.contents_eq.trans he) (hmemose ⟨x, rfl⟩) htail
    have hxs : xs = Expr.denoteArgs (meaning size base) es := hxs
    rw [Task.denote, Expr.denoteArgs, ← hx, ← hxs]
    cases xs with
    | error err => exact ⟨rfl, fun hok => absurd hok Task.not_succeeds_args⟩
    | ok xs => exact ⟨rfl, fun _ => hmemoss ⟨xs, rfl⟩⟩

/-- Evaluation on the empty trail gives what is meant when all that is remembered is what is
meant. -/
theorem Runs.eq_denote {t : Task} {s s' : State} {r : t.Result} (h : Runs size version t s r s')
    (he : s.grid.contents = base.contents) (hg : MemosExact size version base s.grid)
    (htrail : s.trail = .empty) : r = t.denote (meaning size base) :=
  (h.eq_denote_and_memosExact he hg fun _ ha => absurd (htrail ▸ ha) List.not_mem_nil).1

end Evaluation

end FormulaSheet
