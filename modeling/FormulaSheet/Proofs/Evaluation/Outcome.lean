import FormulaSheet.Proofs.Evaluation.Dependence
import FormulaSheet.Proofs.Evaluation.Versions

/-!
# What evaluation can give

A value is remembered in the middle of an evaluation, while other cells are on the trail, and the
trail may have caused it. The only thing that a trail can cause is the cycle error, and what needs
it has the cycle error too. So whatever was evaluated before, evaluation gives what is meant or the
cycle error, and the cycle error instead of something else only for a task that needs an unsettled
cell or a cell on the trail. A cell that needs one on the trail leads back to itself, hence it is
unsettled when its value is remembered.

## Main definitions

* `Evaluation.MemosSettled`: what is remembered is what is meant, or the cycle error for an
  unsettled cell.
* `Evaluation.Task.Ready`: the state in which a task is started.
* `Evaluation.Task.Disturbed`: a task needs an unsettled cell or a cell on the trail.

## Main results

* `Evaluation.Runs.memosSettled_and_eq`: evaluation keeps `MemosSettled`, and it gives what is meant
  or the cycle error.
* `Evaluation.Runs.eq_number`, `Evaluation.Runs.denote_eq_number`: a number is given just where it
  is meant.
-/

namespace FormulaSheet.Evaluation

open Grid Relation

variable {size : Size} {version : Nat} {base : Grid}

/-! ### Settled memories -/

/-- What is remembered at `version` for a cell is what the cell means in `base`, or the cycle error
if the cell is unsettled. -/
def MemosSettled (size : Size) (version : Nat) (base g : Grid) : Prop :=
  g.MemosSatisfy (fun c v => v = meaning size base c ∨ v = .error .cycle ∧ Unsettled size base c)
    size version

/-- A task is started in a grid with the contents of `base` in which memories are settled, and the
cells on the trail lead to all that the task looks at. -/
structure Task.Ready (size : Size) (version : Nat) (base : Grid) (t : Task) (s : State) : Prop where
  contents_eq : s.grid.contents = base.contents
  memos : MemosSettled size version base s.grid
  leads : ∀ a ∈ s.trail.cells, ∀ ρ b, t.LooksAt (meaning size base) ρ b →
    TransGen (Visits size base) a b

/-- The task needs an unsettled cell, or a cell of the trail that does not mean the cycle error. -/
def Task.Disturbed (size : Size) (base : Grid) (t : Task) (trail : Trail) : Prop :=
  ∃ b, t.LooksAt (meaning size base) .needed b ∧
    (Unsettled size base b ∨ b ∈ trail.cells ∧ meaning size base b ≠ .error .cycle)

theorem Task.Disturbed.mono {t t' : Task} {trail : Trail} (h : t.Disturbed size base trail)
    (hlooks : ∀ b, t.LooksAt (meaning size base) .needed b →
      t'.LooksAt (meaning size base) .needed b) : t'.Disturbed size base trail :=
  h.imp fun b hb => hb.imp_left (hlooks b)

namespace Task.Ready

variable {t t' : Task} {s s' : State}

/-- What is started on the empty trail is ready when memories are settled. -/
theorem of_empty (he : s.grid.contents = base.contents)
    (hg : MemosSettled size version base s.grid) (htrail : s.trail = .empty) :
    t.Ready size version base s where
  contents_eq := he
  memos := hg
  leads _ ha := absurd (htrail ▸ ha) List.not_mem_nil

/-- A task that looks at less is ready too. -/
theorem mono (h : t.Ready size version base s)
    (hlooks : ∀ ρ b, t'.LooksAt (meaning size base) ρ b →
      ∃ ρ', t.LooksAt (meaning size base) ρ' b) : t'.Ready size version base s where
  contents_eq := h.contents_eq
  memos := h.memos
  leads a ha ρ b hb := by
    obtain ⟨ρ', hb⟩ := hlooks ρ b hb
    exact h.leads a ha ρ' b hb

/-- A task stays ready when another one has run. -/
theorem after (h : t.Ready size version base s) {r : t'.Result} (hrun : Runs size version t' s r s')
    (hg : MemosSettled size version base s'.grid) : t.Ready size version base s' where
  contents_eq := hrun.contents_eq.trans h.contents_eq
  memos := hg
  leads := hrun.trail_eq ▸ h.leads

variable {c : CellRef} {e l r : Expr} {es : List Expr} {name text : String}

theorem ref (h : (expr (.ref c text)).Ready size version base s) :
    (cell c).Ready size version base s :=
  h.mono fun | _, _, .cell => ⟨_, .ref⟩

/-- The formula of a cell is ready when the cell is entered. -/
theorem enter (h : (cell c).Ready size version base s)
    (hl : lookup size version s.grid c = .stale e) {trail : Trail}
    (hc : s.trail.enter? c = some trail) :
    (expr e).Ready size version base ⟨s.grid, trail⟩ := by
  obtain ⟨-, rfl⟩ := (Trail.enter?_eq_some_iff _ _ _).1 hc
  refine ⟨h.contents_eq, h.memos, fun a ha ρ b hb => ?_⟩
  have hvisits : Visits size base c b := ⟨ρ, e, source_of_lookup_stale h.contents_eq hl, hb⟩
  rcases List.mem_cons.1 ha with rfl | ha
  · exact .single hvisits
  · exact (h.leads a ha _ c .cell).tail hvisits

theorem left {op : Operator} (h : (expr (.binary op l r text)).Ready size version base s) :
    (expr l).Ready size version base s :=
  h.mono fun _ _ hb => ⟨_, .left hb⟩

theorem right {op : Operator} (h : (expr (.binary op l r text)).Ready size version base s) :
    (expr r).Ready size version base s := by
  refine h.mono fun _ _ hb => ?_
  by_cases hl : ∀ err, l.denote (meaning size base) = .error err → err = .cycle
  · exact ⟨_, .right hb hl⟩
  · push Not at hl
    obtain ⟨err, hl, hne⟩ := hl
    exact ⟨_, .lost hb hl hne⟩

theorem args {f : Builtin} (h : (expr (.call name es text)).Ready size version base s)
    (hf : Builtin.find? name = some f) : (args es).Ready size version base s :=
  h.mono fun _ _ hb => ⟨_, .args hf hb⟩

theorem head (h : (Task.args (e :: es)).Ready size version base s) :
    (expr e).Ready size version base s :=
  h.mono fun _ _ hb => ⟨_, .head hb⟩

theorem tail {x : Float} (h : (Task.args (e :: es)).Ready size version base s)
    (hx : e.denote (meaning size base) = .number x) : (Task.args es).Ready size version base s :=
  h.mono fun _ _ hb => ⟨_, .tail hx hb⟩

end Task.Ready

/-! ### Meaning or cycle error -/

/-- A value that needs no computation is the meaning, or the cycle error of an unsettled cell. -/
theorem eq_meaning_of_known {g : Grid} {c : CellRef} {v : Value}
    (he : g.contents = base.contents) (hg : MemosSettled size version base g)
    (hl : lookup size version g c = .known v) :
    v = meaning size base c ∨ v = .error .cycle ∧ Unsettled size base c := by
  rcases source_or_cached_of_lookup_known he hl with hs | ⟨hc, f, hf, hw⟩
  · exact .inl (meaning_of_known hs).symm
  · exact hg c f v hc hf hw

/-- A formula that is to be computed gives the meaning of its cell. -/
theorem meaning_eq_of_stale {g : Grid} {c : CellRef} {e : Expr} (he : g.contents = base.contents)
    (hl : lookup size version g c = .stale e) :
    meaning size base c = e.denote (meaning size base) :=
  meaning_of_stale (source_of_lookup_stale he hl)

/-- A cell whose formula is disturbed while it is computed is unsettled, unless it means the cycle
error. -/
theorem unsettled_of_disturbed {s : State} {trail : Trail} {c : CellRef} {e : Expr}
    (hready : (Task.cell c).Ready size version base s)
    (hl : lookup size version s.grid c = .stale e) (hc : s.trail.enter? c = some trail)
    (he : (Task.expr e).Disturbed size base trail) (hne : meaning size base c ≠ .error .cycle) :
    Unsettled size base c := by
  obtain ⟨-, rfl⟩ := (Trail.enter?_eq_some_iff _ _ _).1 hc
  obtain ⟨b, hlooks, hb⟩ := he
  have hneeds : Needs size base c b :=
    ⟨e, source_of_lookup_stale hready.contents_eq hl, hlooks⟩
  rcases hb with hb | ⟨hb, -⟩
  · exact hb.of_needs hne hneeds
  rcases List.mem_cons.1 hb with rfl | hb
  · exact absurd (.single hneeds) (not_transGen_needs_self hne)
  · exact unsettled_of_leads_back hne hneeds (hready.leads b hb _ c .cell)

/-- Evaluation gives what is meant, or the cycle error if it is disturbed, and memories stay
settled. -/
theorem Runs.memosSettled_and_eq {t : Task} {s s' : State} {r : t.Result}
    (h : Runs size version t s r s') (hready : t.Ready size version base s) :
    MemosSettled size version base s'.grid ∧
      (r = t.denote (meaning size base) ∨ r = t.cycle ∧ t.Disturbed size base s.trail) := by
  induction h with
  | known hl =>
    refine ⟨hready.memos, ?_⟩
    exact (eq_meaning_of_known hready.contents_eq hready.memos hl).imp id fun ⟨hv, hc⟩ =>
      ⟨hv, _, .cell, .inl hc⟩
  | @refused c e s hl hc =>
    refine ⟨hready.memos, ?_⟩
    by_cases hne : meaning size base c = .error .cycle
    · exact .inl hne.symm
    · exact .inr ⟨rfl, c, .cell, .inr ⟨(Trail.enter?_eq_none_iff _ _).1 hc, hne⟩⟩
  | @entered c e v s s' trail hl hc hrun ih =>
    obtain ⟨hmemos, hv⟩ := ih (hready.enter hl hc)
    have hvalue : v = meaning size base c ∨ v = .error .cycle ∧ Unsettled size base c := by
      by_cases hne : meaning size base c = .error .cycle
      · rcases hv with hv | ⟨hv, -⟩
        · exact .inl (hv.trans (meaning_eq_of_stale hready.contents_eq hl).symm)
        · exact .inl (hv.trans hne.symm)
      · exact hv.imp (·.trans (meaning_eq_of_stale hready.contents_eq hl).symm)
          fun ⟨hv, he⟩ => ⟨hv, unsettled_of_disturbed hready hl hc he hne⟩
    exact ⟨MemosSatisfy.remember hmemos hvalue,
      hvalue.imp id fun ⟨hv, hc⟩ => ⟨hv, c, .cell, .inl hc⟩⟩
  | constant => exact ⟨hready.memos, .inl rfl⟩
  | ref _ ih =>
    obtain ⟨hmemos, hv⟩ := ih hready.ref
    exact ⟨hmemos, hv.imp id fun ⟨hv, hc⟩ => ⟨hv, hc.mono fun | _, .cell => .ref⟩⟩
  | @binary op l r text x y s s₁ s₂ hl hr ihl ihr =>
    obtain ⟨hmemosl, hx⟩ := ihl hready.left
    obtain ⟨hmemosr, hy⟩ := ihr (hready.right.after hl hmemosl)
    have hx : x = l.denote (meaning size base) ∨
      x = .error .cycle ∧ (Task.expr l).Disturbed size base s.trail := hx
    have hy : y = r.denote (meaning size base) ∨
      y = .error .cycle ∧ (Task.expr r).Disturbed size base s.trail := hl.trail_eq ▸ hy
    refine ⟨hmemosr, ?_⟩
    rw [Task.denote, Expr.denote_binary]
    rcases hx with hx | ⟨rfl, hleft⟩
    · rw [← hx]
      cases x with
      | error err => exact .inl rfl
      | number x =>
        refine hy.imp (fun hy => by rw [hy]) fun ⟨hy, hright⟩ => ?_
        cases hy
        exact ⟨rfl, hright.mono fun b hb => .right hb fun err herr => by simp [← hx] at herr⟩
    · exact .inr ⟨rfl, hleft.mono fun b hb => .left hb⟩
  | unknown hf => exact ⟨hready.memos, .inl (by rw [Task.denote, Expr.denote, hf])⟩
  | @called name args text f xs s s' hf ha ih =>
    obtain ⟨hmemos, hxs⟩ := ih (hready.args hf)
    have hxs : .ok xs = Expr.denoteArgs (meaning size base) args :=
      hxs.resolve_right fun ⟨hxs, _⟩ => by cases hxs
    exact ⟨hmemos, .inl (by rw [Task.denote, Expr.denote_call hf, ← hxs])⟩
  | @calledError name args text f err s s' hf ha ih =>
    obtain ⟨hmemos, herr⟩ := ih (hready.args hf)
    refine ⟨hmemos, herr.imp (fun herr => ?_) fun ⟨herr, hargs⟩ => ?_⟩
    · have herr : .error err = Expr.denoteArgs (meaning size base) args := herr
      rw [Task.denote, Expr.denote_call hf, ← herr]
    · cases herr
      exact ⟨rfl, hargs.mono fun b hb => .args hf hb⟩
  | noArgs => exact ⟨hready.memos, .inl rfl⟩
  | @argError e es err s s' hrun ih =>
    obtain ⟨hmemos, herr⟩ := ih hready.head
    refine ⟨hmemos, herr.imp (fun herr => ?_) fun ⟨herr, he⟩ => ?_⟩
    · have herr : .error err = e.denote (meaning size base) := herr
      rw [Task.denote, Expr.denoteArgs, ← herr]
    · cases herr
      exact ⟨rfl, he.mono fun b hb => .head hb⟩
  | @arg e es x xs s s₁ s₂ hrun hruns ihe ihs =>
    obtain ⟨hmemose, hx⟩ := ihe hready.head
    have hx : .number x = e.denote (meaning size base) :=
      hx.resolve_right fun ⟨hx, _⟩ => by cases hx
    obtain ⟨hmemos, hxs⟩ := ihs ((hready.tail hx.symm).after hrun hmemose)
    refine ⟨hmemos, hxs.imp (fun hxs => ?_) fun ⟨hxs, hes⟩ => ?_⟩
    · have hxs : xs = Expr.denoteArgs (meaning size base) es := hxs
      rw [Task.denote, Expr.denoteArgs, ← hx, ← hxs]
      cases xs <;> rfl
    · cases hxs
      exact ⟨rfl, (hrun.trail_eq ▸ hes).mono fun b hb => .tail hx.symm hb⟩

/-- An expression that gives a number means it. -/
theorem Runs.denote_eq_number {e : Expr} {s s' : State} {x : Float}
    (h : Runs size version (.expr e) s (.number x) s')
    (hready : (Task.expr e).Ready size version base s) :
    e.denote (meaning size base) = .number x := by
  rcases (h.memosSettled_and_eq hready).2 with hx | ⟨hx, -⟩
  · exact hx.symm
  · cases hx

/-- An expression that means a number gives it: all the cells that it needs are acyclic. -/
theorem Runs.eq_number {e : Expr} {s s' : State} {v : Value} {x : Float}
    (h : Runs size version (.expr e) s v s') (hready : (Task.expr e).Ready size version base s)
    (hx : e.denote (meaning size base) = .number x) : v = .number x := by
  refine ((h.memosSettled_and_eq hready).2.resolve_right ?_).trans hx
  rintro ⟨-, b, hlooks, hb⟩
  obtain ⟨y, hy⟩ := Expr.exists_number_of_denote e hx b hlooks.mem_refs
  have hacyclic : AcyclicFrom size base b := acyclicFrom_of_meaning_eq_number hy
  rcases hb with hb | ⟨hb, -⟩
  · exact hb.not_acyclicFrom hacyclic
  · exact hacyclic b .refl (TransGen.mono visits_le_refers b b (hready.leads b hb _ b hlooks))

end FormulaSheet.Evaluation
