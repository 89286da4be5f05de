import FormulaSheet.Proofs.Evaluation.Denotation
import FormulaSheet.Proofs.Evaluation.Versions

/-!
# Remembered values are right

A value is remembered in the middle of an evaluation, while other cells are on the trail, and it may
be an error that the trail caused. For an acyclic cell the trail does no harm: all cells on it lead
to the cell being computed, so a cell on the trail that is referred to lies on a cycle. Hence what
is remembered for acyclic cells at the current version is their value, whatever was evaluated
before, and evaluation keeps it so.

## Main definitions

* `Evaluation.MemosAgree`: what is remembered for acyclic cells is their value.
* `Evaluation.Task.Agrees`: a result is the one that the meaning of formulas gives.

## Main results

* `Evaluation.Runs.memosAgree_and_agrees`: evaluation keeps `MemosAgree`, and on acyclic cells its
  result agrees.
-/

namespace FormulaSheet.Evaluation

open Relation Grid

variable {size : Size} {version : Nat} {base g : Grid} {c : CellRef}

/-! ### Agreement with the meaning of formulas -/

/-- The cells that a task looks at. -/
def Task.refs : Task → List CellRef
  | cell c => [c]
  | expr e => e.refs
  | args es => Expr.refsOfArgs es

/-- The result of a task is the one that the values of cells in `base` give. -/
def Task.Agrees (size : Size) (base : Grid) : (t : Task) → t.Result → Prop
  | cell c, v => HasValue size base c v
  | expr e, v => ∀ env : CellRef → Value, (∀ b ∈ e.refs, HasValue size base b (env b)) →
      v = e.denote env
  | args es, r => ∀ env : CellRef → Value,
      (∀ b ∈ Expr.refsOfArgs es, HasValue size base b (env b)) → r = Expr.denoteArgs env es

/-- What is remembered at `version` for an acyclic cell of the sheet is its value in `base`. -/
def MemosAgree (size : Size) (version : Nat) (base g : Grid) : Prop :=
  ∀ (c : CellRef) (f : Formula) (v : Value), size.contains c = true → g[c]? = some (.formula f) →
    f.cached? version = some v → AcyclicFrom size base c → HasValue size base c v

/-- Where nothing is remembered at `version` all that is remembered agrees. -/
theorem memosAgree_of_forall_stale
    (h : ∀ (c : CellRef) (f : Formula), g[c]? = some (.formula f) → f.cached? version = none) :
    MemosAgree size version base g :=
  memosSatisfy_of_forall_stale h

/-- Remembering the value of a cell keeps what is remembered right. -/
theorem MemosAgree.remember (h : MemosAgree size version base g) {v : Value}
    (hv : AcyclicFrom size base c → HasValue size base c v) :
    MemosAgree size version base (g.remember c v version) :=
  MemosSatisfy.remember (P := fun c v => AcyclicFrom size base c → HasValue size base c v) h hv

/-! ### Looking up -/

/-- A value that needs no computation is right for an acyclic cell. -/
theorem hasValue_of_known {v : Value} (he : g.contents = base.contents)
    (hg : MemosAgree size version base g) (h : lookup size version g c = .known v)
    (hc : AcyclicFrom size base c) : HasValue size base c v := by
  rw [lookup] at h
  split_ifs at h with hin
  · split at h
    · next x hk =>
      cases h
      exact (HasValue.number hin hk).of_contents_eq he
    · next f hf =>
      split at h
      · next hw =>
        cases h
        exact hg c f _ hin hf hw hc
      · cases h
    · next hk =>
      cases h
      exact (HasValue.blank hin hk).of_contents_eq he
    · next s hk =>
      cases h
      exact (HasValue.text hin hk).of_contents_eq he
    · next hk =>
      cases h
      exact (HasValue.absent hin hk).of_contents_eq he
  · cases h
    exact .outside (by simpa using hin)

theorem refers_of_stale {e : Expr} {b : CellRef} (he : g.contents = base.contents)
    (h : lookup size version g c = .stale e) (hb : b ∈ e.refs) : Refers size base c b := by
  obtain ⟨hin, f, hf, -, rfl⟩ := exists_formula_of_stale h
  rw [← refers_of_contents_eq he]
  exact ⟨hin, f, hf, hb⟩

/-! ### Evaluation -/

/-- The cells on the trail lead to every cell that the task looks at. -/
def LeadsTo (size : Size) (base : Grid) (trail : Trail) (t : Task) : Prop :=
  ∀ a ∈ trail.cells, ∀ b ∈ t.refs, TransGen (Refers size base) a b

/-- An expression has an environment of values when the cells it refers to are acyclic. -/
theorem exists_env {cs : List CellRef} (h : ∀ b ∈ cs, AcyclicFrom size base b) :
    ∃ env : CellRef → Value, ∀ b ∈ cs, HasValue size base b (env b) := by
  have hex : ∀ b, ∃ v, b ∈ cs → HasValue size base b v := by
    intro b
    by_cases hb : b ∈ cs
    · obtain ⟨v, hv⟩ := exists_hasValue (h b hb)
      exact ⟨v, fun _ => hv⟩
    · exact ⟨.error .cycle, fun hb' => absurd hb' hb⟩
  exact ⟨fun b => (hex b).choose, fun b hb => (hex b).choose_spec hb⟩

/-- Evaluation keeps what is remembered right, and its result is right when all the cells that it
looks at are acyclic. -/
theorem Runs.memosAgree_and_agrees {t : Task} {s s' : State} {r : t.Result}
    (h : Runs size version t s r s') (he : s.grid.contents = base.contents)
    (hg : MemosAgree size version base s.grid) (htrail : LeadsTo size base s.trail t) :
    MemosAgree size version base s'.grid ∧
      ((∀ b ∈ t.refs, AcyclicFrom size base b) → t.Agrees size base r) := by
  induction h with
  | known hl =>
    exact ⟨hg, fun hc => hasValue_of_known he hg hl (hc _ (by simp [Task.refs]))⟩
  | @refused c e s hl hc =>
    -- a cell on the trail that is looked at leads to itself
    have hcycle : TransGen (Refers size base) c c :=
      htrail c ((Trail.enter?_eq_none_iff _ _).1 hc) c (by simp [Task.refs])
    exact ⟨hg, fun hacyclic => absurd hcycle (hacyclic c (by simp [Task.refs]) c .refl)⟩
  | @entered c e v s s' trail hl hc hrun ih =>
    obtain ⟨-, rfl⟩ := (Trail.enter?_eq_some_iff _ _ _).1 hc
    have hleads : LeadsTo size base ⟨c :: s.trail.cells⟩ (.expr e) := by
      intro a ha b hb
      have hcb : Refers size base c b := refers_of_stale he hl hb
      rcases List.mem_cons.1 ha with rfl | ha
      · exact .single hcb
      · exact (htrail a ha c (by simp [Task.refs])).tail hcb
    obtain ⟨hmemos, hagrees⟩ := ih he hg hleads
    have hvalue : AcyclicFrom size base c → HasValue size base c v := by
      intro hacyclic
      have hrefs : ∀ b ∈ e.refs, AcyclicFrom size base b := fun b hb =>
        hacyclic.of_refers (refers_of_stale he hl hb)
      obtain ⟨env, henv⟩ := exists_env hrefs
      obtain ⟨hin, f, hf, -, rfl⟩ := exists_formula_of_stale hl
      obtain ⟨m, hm⟩ := exists_formula_of_contents_eq he hf
      rw [hagrees hrefs env henv]
      exact .formula (f := ⟨f.expr, m⟩) hin hm env henv
    exact ⟨hmemos.remember hvalue, fun hacyclic => hvalue (hacyclic c (by simp [Task.refs]))⟩
  | constant => exact ⟨hg, fun _ _ _ => rfl⟩
  | @ref c text v s s' hrun ih =>
    obtain ⟨hmemos, hagrees⟩ := ih he hg htrail
    refine ⟨hmemos, fun hacyclic env henv => ?_⟩
    exact (hagrees hacyclic).unique (henv c (by simp [Expr.refs]))
  | @binary op l r text x y s s₁ s₂ hl hr ihl ihr =>
    have hleft : ∀ b ∈ l.refs, b ∈ (Expr.binary op l r text).refs := by simp_all [Expr.refs]
    have hright : ∀ b ∈ r.refs, b ∈ (Expr.binary op l r text).refs := by simp_all [Expr.refs]
    obtain ⟨hmemos, hx⟩ := ihl he hg fun a ha b hb => htrail a ha b (hleft b hb)
    obtain ⟨hmemos, hy⟩ := ihr (hl.contents_eq.trans he) hmemos fun a ha b hb =>
      htrail a (hl.trail_eq ▸ ha) b (hright b hb)
    refine ⟨hmemos, fun hacyclic env henv => ?_⟩
    have hx : x = l.denote env :=
      hx (fun b hb => hacyclic b (hleft b hb)) env fun b hb => henv b (hleft b hb)
    have hy : y = r.denote env :=
      hy (fun b hb => hacyclic b (hright b hb)) env fun b hb => henv b (hright b hb)
    rw [Expr.denote, ← hx, ← hy]
    cases x <;> cases y <;> rfl
  | unknown hf => exact ⟨hg, fun _ _ _ => by rw [Expr.denote, hf]⟩
  | @called name args text f xs s s' hf ha ih =>
    obtain ⟨hmemos, hxs⟩ := ih he hg htrail
    refine ⟨hmemos, fun hacyclic env henv => ?_⟩
    rw [Expr.denote, hf, ← hxs hacyclic env henv]
    rfl
  | @calledError name args text f err s s' hf ha ih =>
    obtain ⟨hmemos, herr⟩ := ih he hg htrail
    refine ⟨hmemos, fun hacyclic env henv => ?_⟩
    rw [Expr.denote, hf, ← herr hacyclic env henv]
  | noArgs => exact ⟨hg, fun _ _ _ => rfl⟩
  | @argError e es err s s' hrun ih =>
    have hfirst : ∀ b ∈ e.refs, b ∈ Expr.refsOfArgs (e :: es) := by simp_all [Expr.refsOfArgs]
    obtain ⟨hmemos, herr⟩ := ih he hg fun a ha b hb => htrail a ha b (hfirst b hb)
    refine ⟨hmemos, fun hacyclic env henv => ?_⟩
    rw [Expr.denoteArgs, ← herr (fun b hb => hacyclic b (hfirst b hb)) env
      fun b hb => henv b (hfirst b hb)]
  | @arg e es x xs s s₁ s₂ hrun hruns ihe ihs =>
    have hfirst : ∀ b ∈ e.refs, b ∈ Expr.refsOfArgs (e :: es) := by simp_all [Expr.refsOfArgs]
    have hrest : ∀ b ∈ Expr.refsOfArgs es, b ∈ Expr.refsOfArgs (e :: es) := by
      simp_all [Expr.refsOfArgs]
    obtain ⟨hmemos, hx⟩ := ihe he hg fun a ha b hb => htrail a ha b (hfirst b hb)
    obtain ⟨hmemos, hxs⟩ := ihs (hrun.contents_eq.trans he) hmemos fun a ha b hb =>
      htrail a (hrun.trail_eq ▸ ha) b (hrest b hb)
    refine ⟨hmemos, fun hacyclic env henv => ?_⟩
    have hx := hx (fun b hb => hacyclic b (hfirst b hb)) env fun b hb => henv b (hfirst b hb)
    have hxs := hxs (fun b hb => hacyclic b (hrest b hb)) env fun b hb => henv b (hrest b hb)
    rw [Expr.denoteArgs, ← hx, ← hxs]
    cases xs <;> rfl

end FormulaSheet.Evaluation
