import FormulaSheet.Proofs.Evaluation.Current
import FormulaSheet.Proofs.Evaluation.Outcome

/-!
# How a wrong cycle error comes about

While a cell is being computed, every cell that needs it has the cycle error, whatever it means. So
has every cell that needs one for which the cycle error is remembered. On the other hand a formula
cell that was computed has led evaluation to all the cells that it visits, and these to those that
they visit in turn, so that a value counts for each of them in the end. Hence when a masked operand
leads to a cell that needs the cell of the operand, then after a first read of the latter the cycle
error counts for the former, and for whatever needs it.

## Main definitions

* `Evaluation.Followed`: what is visited by a cell whose value is known was looked at.

## Main results

* `Evaluation.Runs.followed_and_seen`: evaluation keeps `Followed` and looks at all that the task
  visits.
* `Evaluation.Runs.eq_cycle_of_needs`: what needs a cell that has to give the cycle error gives it
  too.
* `Evaluation.exists_runs_eq_cycle`: an unsettled cell gives the cycle error after some first read.
-/

namespace FormulaSheet

namespace Evaluation

open Grid Relation

variable {size : Size} {version : Nat} {base : Grid} {c : CellRef} {v : Value}

/-! ### Known values -/

/-- A value that is remembered is known. -/
theorem lookup_remember {g : Grid} {e : Expr} (hl : lookup size version g c = .stale e) (v : Value)
    {g' : Grid} (he : g'.contents = g.contents) :
    lookup size version (g'.remember c v version) c = .known v := by
  obtain ⟨hc, f, hf, -⟩ := exists_formula_of_stale hl
  obtain ⟨m, hm⟩ := exists_formula_of_contents_eq he.symm hf
  exact lookup_of_remembers hc (remembers_remember hm v)

theorem lookup_remember_of_ne (g : Grid) {a : CellRef} (hac : a ≠ c) (v : Value) :
    lookup size version (g.remember c v version) a = lookup size version g a := by
  rw [lookup, lookup, getElem?_remember, if_neg hac]

/-- Evaluation keeps every value that is known. -/
theorem Runs.lookup_eq_known {t : Task} {s s' : State} {r : t.Result}
    (h : Runs size version t s r s') (hk : lookup size version s.grid c = .known v) :
    lookup size version s'.grid c = .known v := by
  refine h.keeps (P := fun g => lookup size version g c = .known v) hk ?_
  intro g g' a e w hl hg hg'
  have hca : c ≠ a := by
    rintro rfl
    cases hl.symm.trans hg
  rwa [lookup_remember_of_ne g' hca]

/-! ### What was looked at -/

/-- A cell is being computed or its value is known. -/
def Seen (size : Size) (version : Nat) (s : State) (b : CellRef) : Prop :=
  b ∈ s.trail.cells ∨ ∃ v, lookup size version s.grid b = .known v

/-- What is visited by a cell whose value is known was looked at. -/
def Followed (size : Size) (version : Nat) (base : Grid) (s : State) : Prop :=
  ∀ a v, lookup size version s.grid a = .known v → ∀ b, Visits size base a b →
    Seen size version s b

/-- What was looked at stays so. -/
theorem Seen.of_runs {t : Task} {s s' : State} {r : t.Result} {b : CellRef}
    (hb : Seen size version s b) (h : Runs size version t s r s') : Seen size version s' b :=
  hb.imp (h.trail_eq ▸ ·) fun ⟨v, hv⟩ => ⟨v, h.lookup_eq_known hv⟩

/-- A cell that was being computed has a known value when it is left. -/
theorem Seen.leave {s : State} {trail : Trail} {b : CellRef}
    (hb : Seen size version s b) (htrail : s.trail.cells = c :: trail.cells)
    (hc : lookup size version (s.grid.remember c v version) c = .known v) :
    Seen size version ⟨s.grid.remember c v version, trail⟩ b := by
  by_cases hbc : b = c
  · exact .inr ⟨v, hbc ▸ hc⟩
  · refine hb.imp (fun hb => ?_) fun ⟨w, hw⟩ => ⟨w, (lookup_remember_of_ne _ hbc v).trans hw⟩
    rw [htrail] at hb
    exact List.mem_of_ne_of_mem hbc hb

theorem Followed.enter {s : State} {trail : Trail} (h : Followed size version base s)
    (hc : s.trail.enter? c = some trail) : Followed size version base ⟨s.grid, trail⟩ := by
  obtain ⟨-, rfl⟩ := (Trail.enter?_eq_some_iff _ _ _).1 hc
  exact fun a v ha b hab => (h a v ha b hab).imp_left (List.mem_cons_of_mem c)

/-- When the cell that was entered last is left, it has led to what its formula looked at. -/
theorem Followed.leave {s : State} {trail : Trail} {e : Expr} (h : Followed size version base s)
    (htrail : s.trail.cells = c :: trail.cells) (hs : source size base c = .stale e)
    (hseen : ∀ ρ b, (Task.expr e).LooksAt (meaning size base) ρ b → Seen size version s b)
    (hc : lookup size version (s.grid.remember c v version) c = .known v) :
    Followed size version base ⟨s.grid.remember c v version, trail⟩ := by
  intro a w ha b hab
  by_cases hac : a = c
  · obtain ⟨ρ, e', hs', hb⟩ := hac ▸ hab
    cases hs.symm.trans hs'
    exact (hseen ρ b hb).leave htrail hc
  · have hknown : lookup size version s.grid a = .known w :=
      (lookup_remember_of_ne _ hac v).symm.trans ha
    exact (h a w hknown b hab).leave htrail hc

/-- Evaluation looks at all that the task visits, and goes on from there. -/
theorem Runs.followed_and_seen {t : Task} {s s' : State} {r : t.Result}
    (h : Runs size version t s r s') (hready : t.Ready size version base s)
    (hs : Followed size version base s) :
    Followed size version base s' ∧
      ∀ ρ b, t.LooksAt (meaning size base) ρ b → Seen size version s' b := by
  induction h with
  | known hl => exact ⟨hs, fun | _, _, .cell => .inr ⟨_, hl⟩⟩
  | refused _ hc => exact ⟨hs, fun | _, _, .cell => .inl ((Trail.enter?_eq_none_iff _ _).1 hc)⟩
  | @entered c e v s s' trail hl hc hrun ih =>
    obtain ⟨hfollowed, hseen⟩ := ih (hready.enter hl hc) (hs.enter hc)
    have hknown := lookup_remember hl v hrun.contents_eq
    have htrail : s'.trail.cells = c :: s.trail.cells := by
      rw [hrun.trail_eq, ((Trail.enter?_eq_some_iff _ _ _).1 hc).2]
    refine ⟨?_, fun | _, _, .cell => .inr ⟨v, hknown⟩⟩
    rw [hrun.trail_eq, Trail.leave_of_enter? hc]
    exact hfollowed.leave htrail (source_of_lookup_stale hready.contents_eq hl) hseen hknown
  | constant => exact ⟨hs, fun _ _ hb => by cases hb⟩
  | ref _ ih =>
    obtain ⟨hfollowed, hseen⟩ := ih hready.ref hs
    exact ⟨hfollowed, fun | _, _, .ref => hseen _ _ .cell⟩
  | @binary op l r text x y s s₁ s₂ hl hr ihl ihr =>
    obtain ⟨hfollowed, hseenl⟩ := ihl hready.left hs
    have hmemos := (hl.memosSettled_and_eq hready.left).1
    obtain ⟨hfollowed, hseenr⟩ := ihr (hready.right.after hl hmemos) hfollowed
    refine ⟨hfollowed, fun ρ b hb => ?_⟩
    cases hb with
    | left hb => exact (hseenl _ b hb).of_runs hr
    | right hb | lost hb => exact hseenr _ b hb
  | unknown hf =>
    refine ⟨hs, fun _ _ hb => ?_⟩
    cases hb with
    | args hf' => cases hf.symm.trans hf'
  | called hf _ ih | calledError hf _ ih =>
    obtain ⟨hfollowed, hseen⟩ := ih (hready.args hf) hs
    refine ⟨hfollowed, fun _ _ hb => ?_⟩
    cases hb with
    | args _ hb => exact hseen _ _ hb
  | noArgs => exact ⟨hs, fun _ _ hb => by cases hb⟩
  | argError hrun ih =>
    obtain ⟨hfollowed, hseen⟩ := ih hready.head hs
    refine ⟨hfollowed, fun _ _ hb => ?_⟩
    cases hb with
    | head hb => exact hseen _ _ hb
    | tail hx => cases hrun.eq_number hready.head hx
  | @arg e es x xs s s₁ s₂ hrun hruns ihe ihs =>
    have hmemos := (hrun.memosSettled_and_eq hready.head).1
    have hx : e.denote (meaning size base) = .number x := hrun.denote_eq_number hready.head
    obtain ⟨hfollowed, hseene⟩ := ihe hready.head hs
    obtain ⟨hfollowed, hseens⟩ := ihs ((hready.tail hx).after hrun hmemos) hfollowed
    refine ⟨hfollowed, fun _ _ hb => ?_⟩
    cases hb with
    | head hb => exact (hseene _ _ hb).of_runs hruns
    | tail _ hb => exact hseens _ _ hb

/-- After an evaluation that started on the empty trail the values of all cells are known to which a
cell with a known value leads. -/
theorem Followed.exists_known {s : State} (hs : Followed size version base s)
    (htrail : s.trail = .empty) {a b : CellRef} (ha : lookup size version s.grid a = .known v)
    (hab : ReflTransGen (Visits size base) a b) :
    ∃ w, lookup size version s.grid b = .known w := by
  induction hab with
  | refl => exact ⟨v, ha⟩
  | tail _ hbc ih =>
    obtain ⟨w, hw⟩ := ih
    refine (hs _ w hw _ hbc).resolve_left fun hmem => ?_
    exact absurd (htrail ▸ hmem) List.not_mem_nil

/-! ### What has to give the cycle error -/

/-- What is remembered at `version` for cells that need `x`, and for `x` itself, is the cycle
error. -/
def MemosBlocked (size : Size) (version : Nat) (base : Grid) (x : CellRef) (g : Grid) : Prop :=
  g.MemosSatisfy (fun c v => ReflTransGen (Needs size base) c x → v = .error .cycle) size version

/-- A cell that needs a formula cell holds a formula itself. -/
theorem exists_source_of_needs {a x : CellRef} {f : Expr} (hx : source size base x = .stale f)
    (hax : ReflTransGen (Needs size base) a x) : ∃ e, source size base a = .stale e := by
  rcases ReflTransGen.cases_head hax with rfl | ⟨b, ⟨e, he, -⟩, -⟩
  · exact ⟨f, hx⟩
  · exact ⟨e, he⟩

/-- While a formula cell is being computed, and when the cycle error is remembered for it, all that
needs it gives the cycle error. -/
theorem Runs.eq_cycle_of_needs {t : Task} {s s' : State} {r : t.Result}
    (h : Runs size version t s r s') (hready : t.Ready size version base s) {x : CellRef} {f : Expr}
    (hx : source size base x = .stale f) (hg : MemosBlocked size version base x s.grid)
    (hblocked : x ∈ s.trail.cells ∨ lookup size version s.grid x = .known (.error .cycle)) :
    MemosBlocked size version base x s'.grid ∧
      ∀ b, t.LooksAt (meaning size base) .needed b → ReflTransGen (Needs size base) b x →
        r = t.cycle := by
  induction h with
  | @known c v s hl =>
    refine ⟨hg, fun | _, .cell, hcx => ?_⟩
    rcases source_or_cached_of_lookup_known hready.contents_eq hl with hs | ⟨hc, f', hf, hw⟩
    · obtain ⟨e, he⟩ := exists_source_of_needs hx hcx
      cases he.symm.trans hs
    · exact hg c f' v hc hf hw hcx
  | refused => exact ⟨hg, fun _ _ _ => rfl⟩
  | @entered c e v s s' trail hl hc hrun ih =>
    obtain ⟨hoff, rfl⟩ := (Trail.enter?_eq_some_iff _ _ _).1 hc
    obtain ⟨hmemos, hv⟩ := ih (hready.enter hl hc) hg (hblocked.imp (List.mem_cons_of_mem c) id)
    have hcycle : ReflTransGen (Needs size base) c x → v = .error .cycle := by
      intro hcx
      rcases ReflTransGen.cases_head hcx with rfl | ⟨b, ⟨e', he, hb⟩, hbx⟩
      · rcases hblocked with hmem | hknown
        · exact absurd hmem hoff
        · cases hl.symm.trans hknown
      · cases he.symm.trans (source_of_lookup_stale hready.contents_eq hl)
        exact hv b hb hbx
    exact ⟨MemosSatisfy.remember hmemos hcycle, fun | _, .cell, hcx => hcycle hcx⟩
  | constant => exact ⟨hg, fun _ hb => by cases hb⟩
  | ref _ ih =>
    obtain ⟨hmemos, hv⟩ := ih hready.ref hg hblocked
    exact ⟨hmemos, fun | _, .ref, hbx => hv _ .cell hbx⟩
  | @binary op l r text x' y s s₁ s₂ hl hr ihl ihr =>
    obtain ⟨hmemos, hxl⟩ := ihl hready.left hg hblocked
    obtain ⟨hsettled, hleft⟩ := hl.memosSettled_and_eq hready.left
    obtain ⟨hmemos, hyr⟩ := ihr (hready.right.after hl hsettled) hmemos
      (hblocked.imp (hl.trail_eq ▸ ·) hl.lookup_eq_known)
    refine ⟨hmemos, fun b hb hbx => ?_⟩
    cases hb with
    | left hb => rw [hxl b hb hbx]; rfl
    | right hb herr =>
      have hcycle : y = .error .cycle := hyr b hb hbx
      cases x' with
      | number z => rw [hcycle]; rfl
      | error err =>
        have herr : err = .cycle := by
          rcases hleft with hleft | ⟨hleft, -⟩
          · exact herr err hleft.symm
          · cases hleft
            rfl
        rw [herr]
        rfl
  | unknown hf =>
    refine ⟨hg, fun _ hb => ?_⟩
    cases hb with
    | args hf' => cases hf.symm.trans hf'
  | called hf _ ih =>
    obtain ⟨hmemos, hxs⟩ := ih (hready.args hf) hg hblocked
    refine ⟨hmemos, fun _ hb hbx => ?_⟩
    cases hb with
    | args _ hb => cases hxs _ hb hbx
  | calledError hf _ ih =>
    obtain ⟨hmemos, herr⟩ := ih (hready.args hf) hg hblocked
    refine ⟨hmemos, fun _ hb hbx => ?_⟩
    cases hb with
    | args _ hb =>
      cases herr _ hb hbx
      rfl
  | noArgs => exact ⟨hg, fun _ hb => by cases hb⟩
  | argError hrun ih =>
    obtain ⟨hmemos, herr⟩ := ih hready.head hg hblocked
    refine ⟨hmemos, fun _ hb hbx => ?_⟩
    cases hb with
    | head hb =>
      cases herr _ hb hbx
      rfl
    | tail hx' => cases hrun.eq_number hready.head hx'
  | @arg e es x' xs s s₁ s₂ hrun hruns ihe ihs =>
    have hsettled := (hrun.memosSettled_and_eq hready.head).1
    have hx' : e.denote (meaning size base) = .number x' := hrun.denote_eq_number hready.head
    obtain ⟨hmemos, he⟩ := ihe hready.head hg hblocked
    obtain ⟨hmemos, hes⟩ := ihs ((hready.tail hx').after hrun hsettled) hmemos
      (hblocked.imp (hrun.trail_eq ▸ ·) hrun.lookup_eq_known)
    refine ⟨hmemos, fun _ hb hbx => ?_⟩
    cases hb with
    | head hb => cases he _ hb hbx
    | tail _ hb =>
      rw [hes _ hb hbx]
      rfl

/-! ### First reads -/

/-- Where nothing is remembered no value of a formula is known. -/
theorem lookup_eq_stale {g : Grid} {e : Expr}
    (hg : ∀ (c : CellRef) (f : Formula), g[c]? = some (.formula f) → f.cached? version = none)
    (hs : source size g c = .stale e) : lookup size version g c = .stale e := by
  obtain ⟨hc, f, hf, rfl⟩ := source_eq_stale_iff.1 hs
  rw [lookup, if_pos hc, hf]
  simp only [hg c f hf]

/-- After a first read of a cell whose formula has a masked operand that leads to a cell that needs
it, the cycle error is remembered for the latter, and for all that needs it and was computed. -/
theorem Runs.cycle_of_masks {g : Grid} {s' : State} {a b d : CellRef}
    (h : Runs size version (.cell b) ⟨g, .empty⟩ v s')
    (hg : ∀ (c : CellRef) (f : Formula), g[c]? = some (.formula f) → f.cached? version = none)
    (hb : meaning size g b ≠ .error .cycle) (hab : Needs size g a b) (hbd : Masks size g b d)
    (hda : ReflTransGen (Visits size g) d a) :
    MemosBlocked size version g a s'.grid ∧
      lookup size version s'.grid a = .known (.error .cycle) := by
  obtain ⟨e, hs, hlooks⟩ := hbd
  have hready : (Task.cell b).Ready size version g ⟨g, .empty⟩ :=
    .of_empty rfl (memosSatisfy_of_forall_stale hg) rfl
  have hfollowed : Followed size version g ⟨g, .empty⟩ := by
    rintro a v ha d ⟨ρ, e, hs, -⟩
    cases ha.symm.trans (lookup_eq_stale hg hs)
  obtain ⟨hfollowed, hseen⟩ := h.followed_and_seen hready hfollowed
  have hbknown : ∃ w, lookup size version s'.grid b = .known w :=
    (hseen _ b .cell).resolve_left fun hmem => absurd (h.trail_eq ▸ hmem) List.not_mem_nil
  have hblocked : MemosBlocked size version g a s'.grid := by
    cases h with
    | known hl => cases hl.symm.trans (lookup_eq_stale hg hs)
    | refused _ hc => exact absurd ((Trail.enter?_eq_none_iff _ _).1 hc) List.not_mem_nil
    | @entered _ e' _ _ s₁ trail hl hc hrun =>
      have hmem : b ∈ trail.cells := by
        rw [((Trail.enter?_eq_some_iff _ _ _).1 hc).2]
        exact List.mem_cons_self
      obtain ⟨hmemos, -⟩ := hrun.eq_cycle_of_needs (hready.enter hl hc) hs
        (memosSatisfy_of_forall_stale hg) (.inl hmem)
      -- what is remembered for `b` in the end does not matter, since `b` does not need `a`
      intro c f w hc hf hw hca
      have hcb : c ≠ b := by
        rintro rfl
        exact not_transGen_needs_self hb (.tail' hca hab)
      rw [getElem?_remember, if_neg hcb] at hf
      exact hmemos c f w hc hf hw (hca.tail hab)
  refine ⟨hblocked, ?_⟩
  obtain ⟨w, hw⟩ := hbknown
  obtain ⟨u, hu⟩ := hfollowed.exists_known h.trail_eq hw (.head ⟨_, e, hs, hlooks⟩ hda)
  rcases source_or_cached_of_lookup_known h.contents_eq hu with hknown | ⟨hc, f, hf, hcached⟩
  · obtain ⟨e', hs', -⟩ := hab
    cases hs'.symm.trans hknown
  · rw [hu, hblocked a f u hc hf hcached .refl]

/-- After a first read of one of the cells that an unsettled cell needs, the unsettled cell gives
the cycle error. -/
theorem exists_runs_eq_cycle {g : Grid}
    (hg : ∀ (c : CellRef) (f : Formula), g[c]? = some (.formula f) → f.cached? version = none)
    (hc : Unsettled size g c) :
    ∃ b, ∀ {v w : Value} {s s' : State}, Runs size version (.cell b) ⟨g, .empty⟩ v s →
      Runs size version (.cell c) ⟨s.grid, .empty⟩ w s' → w = .error .cycle := by
  obtain ⟨hne, a, b, d, hca, hab, hbd, hda⟩ := hc
  refine ⟨b, fun {v w s s'} hfirst hsecond => ?_⟩
  have hb : meaning size g b ≠ .error .cycle :=
    hab.meaning_ne_cycle (meaning_ne_cycle_of_reflTransGen hca hne)
  obtain ⟨hblocked, hknown⟩ := hfirst.cycle_of_masks hg hb hab hbd hda
  have hready : (Task.cell b).Ready size version g ⟨g, .empty⟩ :=
    .of_empty rfl (memosSatisfy_of_forall_stale hg) rfl
  have hmemos := (hfirst.memosSettled_and_eq hready).1
  obtain ⟨e, hs, -⟩ := hab
  exact (hsecond.eq_cycle_of_needs (.of_empty hfirst.contents_eq hmemos rfl) hs hblocked
    (.inr hknown)).2 c .cell hca

end Evaluation

end FormulaSheet
