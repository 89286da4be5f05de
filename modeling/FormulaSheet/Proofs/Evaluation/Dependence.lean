import FormulaSheet.Proofs.Evaluation.Memoization
import FormulaSheet.Proofs.Evaluation.Walk

/-!
# What evaluation looks at

An evaluation need not look at all the references of a formula: the arguments of a call are
evaluated up to the first error, and those of an unknown function not at all. Neither does all that
it looks at matter. The right operand of an operator is evaluated even if the left one is an error,
and then its value is lost. Such an operand is masked, unless the error is the cycle error: a
formula with the cycle error in front of it has the cycle error too, whether its operand is lost or
not.

The other references are needed. A formula has the cycle error as soon as a cell that it needs has
it, so a cell that needs itself means the cycle error, and no other cell can need itself. A masked
operand may lead back to its cell all the same. If it leads to a cell that needs this cell, then
that cell gets the cycle error when it is computed on behalf of the operand, and means something
else. Such cells, and those that need them, are unsettled.

## Main definitions

* `Evaluation.Task.LooksAt`: what a task looks at, and in which role.
* `Grid.LooksAt`, `Grid.Visits`: what the formula of a cell looks at.
* `Grid.Unsettled`: a cell needs one that is looked at by a masked operand of what it needs itself.

## Main results

* `Grid.not_transGen_needs_self`: no cell that means something else than the cycle error needs
  itself.
* `Grid.unsettled_of_leads_back`: a cell that leads back to one that needs it makes that one
  unsettled.
-/

namespace FormulaSheet

namespace Evaluation

/-! ### Results of tasks -/

/-- The result of a task where the cells have the values `env`. -/
def Task.denote (env : CellRef → Value) : (t : Task) → t.Result
  | cell c => env c
  | expr e => e.denote env
  | args es => Expr.denoteArgs env es

/-- The result of a task that is the cycle error. -/
def Task.cycle : (t : Task) → t.Result
  | cell _ | expr _ => Value.error .cycle
  | args _ => Except.error .cycle

/-! ### What a task looks at -/

/-- What becomes of the value of a cell that is looked at. -/
inductive Role where
  /-- The result cannot do without it. -/
  | needed
  /-- It is lost, because there was an error before it. -/
  | masked

/-- `t.LooksAt env ρ b` says that the task `t` looks at the cell `b` in the role `ρ` where the cells
have the values `env`. What stands to the right of an error other than the cycle error is masked. -/
inductive Task.LooksAt (env : CellRef → Value) : Task → Role → CellRef → Prop where
  | cell {c} : LooksAt env (.cell c) .needed c
  | ref {c text} : LooksAt env (.expr (.ref c text)) .needed c
  | left {op l r text ρ b} (h : LooksAt env (.expr l) ρ b) :
      LooksAt env (.expr (.binary op l r text)) ρ b
  | right {op l r text ρ b} (h : LooksAt env (.expr r) ρ b)
      (hl : ∀ err, l.denote env = .error err → err = .cycle) :
      LooksAt env (.expr (.binary op l r text)) ρ b
  | lost {op l r text ρ b err} (h : LooksAt env (.expr r) ρ b) (hl : l.denote env = .error err)
      (hne : err ≠ .cycle) : LooksAt env (.expr (.binary op l r text)) .masked b
  | args {name es text f ρ b} (hf : Builtin.find? name = some f) (h : LooksAt env (.args es) ρ b) :
      LooksAt env (.expr (.call name es text)) ρ b
  | head {e es ρ b} (h : LooksAt env (.expr e) ρ b) : LooksAt env (.args (e :: es)) ρ b
  | tail {e es x ρ b} (hx : e.denote env = .number x) (h : LooksAt env (.args es) ρ b) :
      LooksAt env (.args (e :: es)) ρ b

namespace Task.LooksAt

variable {env env' : CellRef → Value} {t : Task} {ρ : Role} {b : CellRef}

/-- Only references are looked at. -/
theorem mem_refs (h : t.LooksAt env ρ b) : b ∈ t.refs := by
  induction h with
  | cell | ref => exact List.mem_singleton_self _
  | left _ ih | head _ ih => exact List.mem_append_left _ ih
  | right _ _ ih | lost _ _ _ ih | tail _ _ ih => exact List.mem_append_right _ ih
  | args _ _ ih => exact ih

/-- Where a task has another result than the cycle error, what it needs has other values. This is so
in each stage on the way to the values `env`. -/
theorem ne_cycle (h : t.LooksAt env .needed b)
    (henv : ∀ c, env' c ≠ .error .cycle → env c = env' c) (ht : t.denote env' ≠ t.cycle) :
    env' b ≠ .error .cycle := by
  generalize hρ : Role.needed = ρ at h
  induction h with
  | cell | ref => exact ht
  | @left op l r text ρ b _ ih =>
    have hbinary : (Expr.binary op l r text).denote env' ≠ .error .cycle := ht
    exact ih (Expr.left_ne_cycle hbinary) hρ
  | @right op l r text ρ b _ hl ih =>
    have hbinary : (Expr.binary op l r text).denote env' ≠ .error .cycle := ht
    have hne : l.denote env' ≠ .error .cycle := Expr.left_ne_cycle hbinary
    have hleft : l.denote env = l.denote env' := Expr.denote_mono henv l hne
    cases hx : l.denote env' with
    | error err => exact absurd (hl err (hleft.trans hx) ▸ hx) hne
    | number x => exact ih (Expr.right_ne_cycle hbinary hx) hρ
  | lost => cases hρ
  | @args name es text f ρ b hf _ ih =>
    have hcall : (Expr.call name es text).denote env' ≠ .error .cycle := ht
    exact ih (Expr.args_ne_cycle hf hcall) hρ
  | head _ ih => exact ih (Expr.head_ne_cycle ht) hρ
  | @tail e es x ρ b hx _ ih =>
    have hhead : e.denote env = e.denote env' := Expr.denote_mono henv e (Expr.head_ne_cycle ht)
    exact ih (Expr.tail_ne_cycle ht (hhead.symm.trans hx)) hρ

end Task.LooksAt

end Evaluation

namespace Grid

open Evaluation Relation

variable {size : Size} {g : Grid} {ρ : Role} {a b c : CellRef} {e : Expr}

/-! ### What a cell looks at -/

/-- The formula of the cell `a` looks at the cell `b` in the role `ρ` where all cells have the
values that they mean. -/
def LooksAt (size : Size) (g : Grid) (ρ : Role) (a b : CellRef) : Prop :=
  ∃ e, source size g a = .stale e ∧ (Task.expr e).LooksAt (meaning size g) ρ b

/-- The formula of `a` needs the value of `b`. -/
abbrev Needs (size : Size) (g : Grid) : CellRef → CellRef → Prop :=
  LooksAt size g .needed

/-- The formula of `a` looks at `b` in a masked operand. -/
abbrev Masks (size : Size) (g : Grid) : CellRef → CellRef → Prop :=
  LooksAt size g .masked

/-- The formula of `a` looks at `b`. -/
def Visits (size : Size) (g : Grid) (a b : CellRef) : Prop :=
  ∃ ρ, LooksAt size g ρ a b

theorem looksAt_le_visits (ρ : Role) : LooksAt size g ρ ≤ Visits size g :=
  fun _ _ h => ⟨ρ, h⟩

/-- Only references are looked at. -/
theorem visits_le_refers : Visits size g ≤ Refers size g := by
  rintro a b ⟨ρ, e, hs, hlooks⟩
  exact refers_of_source hs hlooks.mem_refs

/-- What a cell needs has another result than the cycle error before the cell itself has one. -/
theorem Needs.stage_ne_cycle (h : Needs size g a b) {n : Nat}
    (ha : stage size g (n + 1) a ≠ .error .cycle) : stage size g n b ≠ .error .cycle := by
  obtain ⟨e, hs, hlooks⟩ := h
  rw [stage_of_stale hs] at ha
  exact hlooks.ne_cycle (fun c hc => meaning_eq_stage hc) ha

theorem Needs.meaning_ne_cycle (h : Needs size g a b) (ha : meaning size g a ≠ .error .cycle) :
    meaning size g b ≠ .error .cycle := by
  obtain ⟨e, hs, hlooks⟩ := h
  rw [meaning_of_stale hs] at ha
  exact hlooks.ne_cycle (fun _ _ => rfl) ha

theorem meaning_ne_cycle_of_reflTransGen (h : ReflTransGen (Needs size g) a b)
    (ha : meaning size g a ≠ .error .cycle) : meaning size g b ≠ .error .cycle := by
  induction h with
  | refl => exact ha
  | tail _ hbc ih => exact hbc.meaning_ne_cycle ih

/-- What a cell needs in one or more steps has a result in an earlier stage. -/
theorem exists_lt_stage_ne_cycle (h : TransGen (Needs size g) a b) {n : Nat}
    (ha : stage size g n a ≠ .error .cycle) :
    ∃ m < n, stage size g m b ≠ .error .cycle := by
  have hstep : ∀ {a b : CellRef}, Needs size g a b → ∀ {n}, stage size g n a ≠ .error .cycle →
      ∃ m < n, stage size g m b ≠ .error .cycle := by
    intro a b hab n ha
    cases n with
    | zero => exact absurd rfl ha
    | succ n => exact ⟨n, Nat.lt_succ_self n, hab.stage_ne_cycle ha⟩
  induction h with
  | single hab => exact hstep hab ha
  | tail _ hbc ih =>
    obtain ⟨m, hm, hb⟩ := ih
    obtain ⟨k, hk, hc⟩ := hstep hbc hb
    exact ⟨k, hk.trans hm, hc⟩

/-- A cell that means something else than the cycle error does not need itself. -/
theorem not_transGen_needs_self (hc : meaning size g c ≠ .error .cycle) :
    ¬ TransGen (Needs size g) c c := by
  intro hself
  -- there is no first stage that gives the cell a result
  have hnone : ∀ n, stage size g n c = .error .cycle := by
    intro n
    induction n using Nat.strong_induction_on with
    | _ n ih =>
      by_contra hn
      obtain ⟨m, hm, hne⟩ := exists_lt_stage_ne_cycle hself hn
      exact hne (ih m hm)
  exact hc (meaning_eq_cycle hnone)

/-! ### Unsettled cells -/

/-- The cell `c` does not mean the cycle error, and it needs a cell `a` that needs a cell `b` whose
formula has a masked operand that leads back to `a`; it may be `a` itself. -/
def Unsettled (size : Size) (g : Grid) (c : CellRef) : Prop :=
  meaning size g c ≠ .error .cycle ∧ ∃ a b d, ReflTransGen (Needs size g) c a ∧
    Needs size g a b ∧ Masks size g b d ∧ ReflTransGen (Visits size g) d a

/-- What needs an unsettled cell is unsettled, unless it means the cycle error. -/
theorem Unsettled.of_needs (hb : Unsettled size g b) (hc : meaning size g c ≠ .error .cycle)
    (hcb : Needs size g c b) : Unsettled size g c := by
  obtain ⟨-, a, b', d, hba, hneeds, hmasks, hback⟩ := hb
  exact ⟨hc, a, b', d, hba.head hcb, hneeds, hmasks, hback⟩

/-- References lead from an unsettled cell to a cycle. -/
theorem Unsettled.not_acyclicFrom (hc : Unsettled size g c) : ¬ AcyclicFrom size g c := by
  obtain ⟨-, a, b, d, hca, hab, hbd, hda⟩ := hc
  have hcycle : TransGen (Visits size g) a a :=
    .trans_left (.tail (.single ⟨_, hab⟩) ⟨_, hbd⟩) hda
  have hreaches : Reaches size g c a :=
    ReflTransGen.mono ((looksAt_le_visits _).trans visits_le_refers) c a hca
  exact fun h => h a hreaches (TransGen.mono visits_le_refers a a hcycle)

/-- Where one cell leads to another, it needs the other, or there is a first masked operand on the
way. -/
theorem needs_or_masks (h : TransGen (Visits size g) a c) :
    TransGen (Needs size g) a c ∨
      ∃ b d, ReflTransGen (Needs size g) a b ∧ Masks size g b d ∧
        ReflTransGen (Visits size g) d c := by
  have hstep : ∀ {b c : CellRef}, ReflTransGen (Needs size g) a b → Visits size g b c →
      TransGen (Needs size g) a c ∨
        ∃ b d, ReflTransGen (Needs size g) a b ∧ Masks size g b d ∧
          ReflTransGen (Visits size g) d c := by
    rintro b c hab ⟨ρ, hbc⟩
    cases ρ with
    | needed => exact .inl (.tail' hab hbc)
    | masked => exact .inr ⟨b, c, hab, hbc, .refl⟩
  induction h with
  | single hac => exact hstep .refl hac
  | tail _ hbc ih =>
    rcases ih with hab | ⟨b', d, hab', hmasks, hdb⟩
    · exact hstep hab.to_reflTransGen hbc
    · exact .inr ⟨b', d, hab', hmasks, hdb.tail hbc⟩

/-- A cell that needs one that leads back to it is unsettled, unless it means the cycle error. -/
theorem unsettled_of_leads_back (hc : meaning size g c ≠ .error .cycle)
    (hca : Needs size g c a) (hac : TransGen (Visits size g) a c) : Unsettled size g c := by
  obtain hneeds | ⟨b, d, hab, hbd, hdc⟩ := needs_or_masks hac
  · exact absurd (TransGen.head hca hneeds) (not_transGen_needs_self hc)
  · obtain ⟨a', hca', ha'b⟩ := TransGen.tail'_iff.1 (TransGen.head' hca hab)
    have hvisits : ReflTransGen (Visits size g) c a' :=
      ReflTransGen.mono (looksAt_le_visits _) c a' hca'
    exact ⟨hc, a', b, d, hca', ha'b, hbd, hdc.trans hvisits⟩

end Grid

end FormulaSheet
