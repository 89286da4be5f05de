import FormulaSheet.Proofs.Evaluation.Denotation

/-!
# Evaluation without memory

Without memory every cell that is referred to is computed anew. A walk along the references keeps
only the trail of the formula cells being computed, and a cell on the trail gives the cycle error.
What walks give can also be reached in stages: in each stage the formulas are computed once from
what the stage before gives, and at first every cell has the cycle error. A stage keeps every
result of the stage before other than the cycle error, so a cell has another result as soon as some
stage gives it one. This description knows no trail, and it shows that the values of the walks from
the empty trail solve the equations that the formulas are.

## Main definitions

* `Grid.source`: what a cell holds, disregarding what is remembered.
* `Grid.walk`: the value of a cell, computed without memory.
* `Grid.stage`: the values of the cells after some stages.
* `Grid.meaning`: the values that walks from the empty trail give.

## Main results

* `Grid.meaning_eq_stage`, `Grid.exists_stage_eq_meaning`: the stages lead to the meaning.
* `Grid.meaning_of_stale`: a formula cell means what its formula gives.
* `Grid.acyclicFrom_of_meaning_eq_number`: only acyclic cells mean numbers.
-/

namespace FormulaSheet

/-! ### Expressions -/

namespace Expr

variable {env env' : CellRef → Value}

theorem denote_binary (env : CellRef → Value) (op : Operator) (l r : Expr) (text : String) :
    (binary op l r text).denote env = op.applyValues (l.denote env) (r.denote env) := by
  rw [denote]
  cases l.denote env <;> cases r.denote env <;> rfl

theorem denote_call {name : String} {f : Builtin} (hf : Builtin.find? name = some f)
    (env : CellRef → Value) (args : List Expr) (text : String) :
    (call name args text).denote env =
      match denoteArgs env args with
      | .error err => .error err
      | .ok xs => f.call xs := by
  rw [denote, hf]
  rfl

/-! The operands of an operator and the arguments of a call are needed from left to right: where
the whole does not have the cycle error, neither do they, up to the first error. -/

theorem left_ne_cycle {op : Operator} {l r : Expr} {text : String}
    (h : (binary op l r text).denote env ≠ .error .cycle) : l.denote env ≠ .error .cycle := by
  intro hl
  rw [denote_binary, hl] at h
  exact h rfl

theorem right_ne_cycle {op : Operator} {l r : Expr} {text : String} {x : Float}
    (h : (binary op l r text).denote env ≠ .error .cycle) (hx : l.denote env = .number x) :
    r.denote env ≠ .error .cycle := by
  intro hr
  rw [denote_binary, hx, hr] at h
  exact h rfl

theorem args_ne_cycle {name : String} {f : Builtin} {args : List Expr} {text : String}
    (hf : Builtin.find? name = some f) (h : (call name args text).denote env ≠ .error .cycle) :
    denoteArgs env args ≠ .error .cycle := by
  intro hargs
  rw [denote_call hf, hargs] at h
  exact h rfl

theorem head_ne_cycle {e : Expr} {es : List Expr}
    (h : denoteArgs env (e :: es) ≠ .error .cycle) : e.denote env ≠ .error .cycle := by
  intro he
  rw [denoteArgs, he] at h
  exact h rfl

theorem tail_ne_cycle {e : Expr} {es : List Expr} {x : Float}
    (h : denoteArgs env (e :: es) ≠ .error .cycle) (hx : e.denote env = .number x) :
    denoteArgs env es ≠ .error .cycle := by
  intro hes
  rw [denoteArgs, hx, hes] at h
  exact h rfl

mutual

/-- A value other than the cycle error stays the same when only cells with the cycle error get
other values. -/
theorem denote_mono (h : ∀ c, env c ≠ .error .cycle → env' c = env c) : (e : Expr) →
    e.denote env ≠ .error .cycle → e.denote env' = e.denote env
  | constant _ _, _ => rfl
  | ref c _, he => h c he
  | binary op l r text, he => by
    have hl : l.denote env' = l.denote env := denote_mono h l (left_ne_cycle he)
    rw [denote_binary, denote_binary, hl]
    cases hx : l.denote env with
    | error err => rfl
    | number x => rw [denote_mono h r (right_ne_cycle he hx)]
  | call name args text, he => by
    cases hf : Builtin.find? name with
    | none => simp [denote, hf]
    | some f => rw [denote_call hf, denote_call hf, denoteArgs_mono h args (args_ne_cycle hf he)]

/-- The numbers of arguments stay the same when only cells with the cycle error get other
values. -/
theorem denoteArgs_mono (h : ∀ c, env c ≠ .error .cycle → env' c = env c) : (es : List Expr) →
    denoteArgs env es ≠ .error .cycle → denoteArgs env' es = denoteArgs env es
  | [], _ => rfl
  | e :: es, hes => by
    have he : e.denote env' = e.denote env := denote_mono h e (head_ne_cycle hes)
    rw [denoteArgs, denoteArgs, he]
    cases hx : e.denote env with
    | error err => rfl
    | number x => rw [denoteArgs_mono h es (tail_ne_cycle hes hx)]

end

mutual

/-- An expression is a number only if all the cells that it refers to are. -/
theorem exists_number_of_denote : (e : Expr) → {x : Float} → e.denote env = .number x →
    ∀ b ∈ e.refs, ∃ y, env b = .number y
  | constant _ _, _, _, b, hb => by simp [refs] at hb
  | ref c _, x, h, b, hb => by
    obtain rfl : b = c := by simpa [refs] using hb
    exact ⟨x, h⟩
  | binary op l r text, z, h, b, hb => by
    rw [denote_binary] at h
    cases hx : l.denote env with
    | error err => simp [hx, Operator.applyValues] at h
    | number x =>
      cases hy : r.denote env with
      | error err => simp [hx, hy, Operator.applyValues] at h
      | number y =>
        rw [refs, List.mem_append] at hb
        rcases hb with hb | hb
        · exact exists_number_of_denote l hx b hb
        · exact exists_number_of_denote r hy b hb
  | call name args text, z, h, b, hb => by
    cases hf : Builtin.find? name with
    | none => simp [denote, hf] at h
    | some f =>
      rw [denote_call hf] at h
      cases hxs : denoteArgs env args with
      | error err => simp [hxs] at h
      | ok xs => exact exists_number_of_denoteArgs args hxs b (by simpa [refs] using hb)

/-- Arguments are numbers only if all the cells that they refer to are. -/
theorem exists_number_of_denoteArgs : (es : List Expr) → {xs : List Float} →
    denoteArgs env es = .ok xs → ∀ b ∈ refsOfArgs es, ∃ y, env b = .number y
  | [], _, _, b, hb => by simp [refsOfArgs] at hb
  | e :: es, zs, h, b, hb => by
    rw [denoteArgs] at h
    cases hx : e.denote env with
    | error err => simp [hx] at h
    | number x =>
      cases hxs : denoteArgs env es with
      | error err => simp [hx, hxs] at h
      | ok xs =>
        rw [refsOfArgs, List.mem_append] at hb
        rcases hb with hb | hb
        · exact exists_number_of_denote e hx b hb
        · exact exists_number_of_denoteArgs es hxs b hb

end

end Expr

/-! ### What cells hold -/

namespace Grid

open Evaluation Relation

variable {size : Size} {version : Nat} {g h : Grid} {c : CellRef} {e : Expr} {v : Value}

/-- What a cell holds for a formula that refers to it, disregarding what is remembered: a value or
an expression that is to be computed. -/
def source (size : Size) (g : Grid) (c : CellRef) : Lookup :=
  if size.contains c then
    match g[c]? with
    | some (.number x) => .known (.number x)
    | some (.formula f) => .stale f.expr
    | some .empty | some (.text _) | none => .known (.error .cellType)
  else .known (.error .position)

theorem source_eq_stale_iff :
    source size g c = .stale e ↔
      size.contains c = true ∧ ∃ f : Formula, g[c]? = some (.formula f) ∧ f.expr = e := by
  rw [source]
  split_ifs with hc
  · split <;> simp_all
  · simp [hc]

theorem mem_formulaCells_of_source (hs : source size g c = .stale e) : c ∈ g.formulaCells := by
  obtain ⟨-, f, hf, -⟩ := source_eq_stale_iff.1 hs
  exact mem_formulaCells.2 ⟨f, hf⟩

/-- What a cell holds is a matter of its contents. -/
theorem source_congr (he : g.contents[c]? = h.contents[c]?) : source size g c = source size h c := by
  rw [getElem?_contents, getElem?_contents] at he
  rw [source, source]
  cases hg : g[c]? with
  | none =>
    rw [hg, Option.map_none, eq_comm, Option.map_eq_none_iff] at he
    rw [he]
  | some k =>
    rw [hg, Option.map_some] at he
    obtain ⟨k', hk', hforget⟩ := Option.map_eq_some_iff.1 he.symm
    rw [hk']
    cases k <;> cases k' <;> simp_all [Cell.forget]

theorem source_of_contents_eq (he : g.contents = h.contents) (c : CellRef) :
    source size g c = source size h c :=
  source_congr (by rw [he])

/-- The formula of a cell is to be computed only if the cell holds one. -/
theorem source_of_lookup_stale (he : g.contents = h.contents)
    (hl : lookup size version g c = .stale e) : source size h c = .stale e := by
  obtain ⟨hc, f, hf, -, hexpr⟩ := exists_formula_of_stale hl
  rw [← source_of_contents_eq he]
  exact source_eq_stale_iff.2 ⟨hc, f, hf, hexpr⟩

/-- A value that needs no computation is held by the cell or remembered for its formula. -/
theorem source_or_cached_of_lookup_known (he : g.contents = h.contents)
    (hl : lookup size version g c = .known v) :
    source size h c = .known v ∨
      size.contains c = true ∧ ∃ f : Formula, g[c]? = some (.formula f) ∧
        f.cached? version = some v := by
  rw [← source_of_contents_eq he]
  by_cases hf : ∃ f, g[c]? = some (.formula f)
  · obtain ⟨f, hf⟩ := hf
    rw [lookup] at hl
    rw [source]
    split_ifs at hl ⊢ with hc
    · rw [hf] at hl
      cases hv : f.cached? version with
      | some w =>
        simp only [hv, Lookup.known.injEq] at hl
        exact .inr ⟨hc, f, hf, hl ▸ hv⟩
      | none => simp [hv] at hl
    · exact .inl hl
  · left
    rw [lookup] at hl
    rw [source, ← hl]
    split_ifs with hc
    · cases hk : g[c]? with
      | none => rfl
      | some k =>
        cases k with
        | formula f => exact absurd ⟨f, hk⟩ hf
        | empty | number | text => rfl
    · rfl

theorem refers_of_source (hs : source size g c = .stale e) {b : CellRef} (hb : b ∈ e.refs) :
    Refers size g c b := by
  obtain ⟨hc, f, hf, rfl⟩ := source_eq_stale_iff.1 hs
  exact ⟨hc, f, hf, hb⟩

/-! ### Walks -/

/-- The value of a cell, computed without memory while the cells of `t` are being computed: a
formula cell on the trail has the cycle error, and every other one the value that its formula gives
while the cell is on the trail as well. -/
def walk (size : Size) (g : Grid) (t : Trail) (c : CellRef) : Value :=
  match _ : source size g c with
  | .known v => v
  | .stale e =>
    match _ : t.enter? c with
    | none => .error .cycle
    | some t' => e.denote fun b => walk size g t' b
termination_by room ⟨g, t⟩
decreasing_by exact room_lt_of_enter? (s := ⟨g, t⟩) (mem_formulaCells_of_source ‹_›) ‹_›

variable {t : Trail}

theorem walk_of_known (hs : source size g c = .known v) (t : Trail) : walk size g t c = v := by
  rw [walk]
  split
  · simp_all
  · simp_all

theorem walk_of_mem (hs : source size g c = .stale e) (hc : c ∈ t.cells) :
    walk size g t c = .error .cycle := by
  rw [walk]
  split
  · simp_all
  · split
    · rfl
    · next ht => exact absurd hc ((Trail.enter?_eq_some_iff _ _ _).1 ht).1

theorem walk_of_not_mem (hs : source size g c = .stale e) (hc : c ∉ t.cells) :
    walk size g t c = e.denote (walk size g ⟨c :: t.cells⟩) := by
  rw [walk]
  split
  · simp_all
  · next e' hs' =>
    obtain rfl : e' = e := by simpa [hs] using hs'.symm
    split
    · next ht => exact absurd ((Trail.enter?_eq_none_iff _ _).1 ht) hc
    · next ht => rw [((Trail.enter?_eq_some_iff _ _ _).1 ht).2]

/-! ### Stages -/

/-- The values of the cells after `n` stages. Before the first stage every cell has the cycle
error; in each stage the formulas are computed once. -/
def stage (size : Size) (g : Grid) : Nat → CellRef → Value
  | 0, _ => .error .cycle
  | n + 1, c =>
    match source size g c with
    | .known v => v
    | .stale e => e.denote (stage size g n)

theorem stage_of_known (hs : source size g c = .known v) (n : Nat) :
    stage size g (n + 1) c = v := by
  rw [stage, hs]

theorem stage_of_stale (hs : source size g c = .stale e) (n : Nat) :
    stage size g (n + 1) c = e.denote (stage size g n) := by
  rw [stage, hs]

/-- A stage keeps the results of the stage before, cycle errors excepted. -/
theorem stage_succ {n : Nat} (h : stage size g n c ≠ .error .cycle) :
    stage size g (n + 1) c = stage size g n c := by
  induction n generalizing c with
  | zero => exact absurd rfl h
  | succ n ih =>
    cases hs : source size g c with
    | known v => rw [stage_of_known hs, stage_of_known hs]
    | stale e =>
      rw [stage_of_stale hs] at h ⊢
      rw [stage_of_stale hs]
      exact Expr.denote_mono (fun b hb => ih hb) e h

/-- A cell that still has the cycle error had it in the stage before. -/
theorem stage_eq_cycle_of_succ {n : Nat} (h : stage size g (n + 1) c = .error .cycle) :
    stage size g n c = .error .cycle := by
  by_contra hne
  exact hne ((stage_succ hne).symm.trans h)

/-- A result other than the cycle error is what a walk gives on every trail of cells that do not
have such a result yet. -/
theorem walk_eq_stage {n : Nat} (h : stage size g n c ≠ .error .cycle)
    (ht : ∀ a ∈ t.cells, stage size g n a = .error .cycle) :
    walk size g t c = stage size g n c := by
  induction n generalizing c t with
  | zero => exact absurd rfl h
  | succ n ih =>
    have htrail : ∀ a ∈ t.cells, stage size g n a = .error .cycle := fun a ha =>
      stage_eq_cycle_of_succ (ht a ha)
    by_cases hn : stage size g n c = .error .cycle
    · cases hs : source size g c with
      | known v => rw [walk_of_known hs, stage_of_known hs]
      | stale e =>
        -- in this stage the cell gets its result, so it is not on the trail
        have hc : c ∉ t.cells := fun hc => h (ht c hc)
        have hextended : ∀ a ∈ c :: t.cells, stage size g n a = .error .cycle :=
          List.forall_mem_cons.2 ⟨hn, htrail⟩
        rw [stage_of_stale hs] at h ⊢
        rw [walk_of_not_mem hs hc]
        exact Expr.denote_mono (fun b hb => ih hb hextended) e h
    · rw [stage_succ hn]
      exact ih hn htrail

/-- A result other than the cycle error that a walk gives is reached when there have been more
stages than there are formula cells off the trail. -/
theorem stage_eq_walk {n : Nat} (hn : room ⟨g, t⟩ < n) (h : walk size g t c ≠ .error .cycle) :
    stage size g n c = walk size g t c := by
  induction n generalizing c t with
  | zero => exact absurd hn (Nat.not_lt_zero _)
  | succ n ih =>
    cases hs : source size g c with
    | known v => rw [walk_of_known hs, stage_of_known hs]
    | stale e =>
      have hc : c ∉ t.cells := fun hc => h (walk_of_mem hs hc)
      have hless : room ⟨g, ⟨c :: t.cells⟩⟩ < room ⟨g, t⟩ :=
        room_lt_of_enter? (s := ⟨g, t⟩) (mem_formulaCells_of_source hs)
          ((Trail.enter?_eq_some_iff _ _ _).2 ⟨hc, rfl⟩)
      rw [walk_of_not_mem hs hc] at h ⊢
      rw [stage_of_stale hs]
      exact Expr.denote_mono (fun b hb => ih (by omega) hb) e h

/-! ### Meaning -/

/-- The value of a cell, computed without memory while no other cell is being computed. -/
def meaning (size : Size) (g : Grid) (c : CellRef) : Value :=
  walk size g .empty c

/-- What a stage gives, cycle errors excepted, is the meaning. -/
theorem meaning_eq_stage {n : Nat} (h : stage size g n c ≠ .error .cycle) :
    meaning size g c = stage size g n c :=
  walk_eq_stage h fun _ ha => absurd ha List.not_mem_nil

/-- Some stage gives the meaning of all cells. -/
theorem exists_stage_eq_meaning (size : Size) (g : Grid) :
    ∃ n, ∀ c, meaning size g c ≠ .error .cycle → stage size g n c = meaning size g c :=
  ⟨room ⟨g, .empty⟩ + 1, fun _ h => stage_eq_walk (Nat.lt_succ_self _) h⟩

/-- A cell that no stage gives a result means the cycle error. -/
theorem meaning_eq_cycle (h : ∀ n, stage size g n c = .error .cycle) :
    meaning size g c = .error .cycle := by
  obtain ⟨n, hn⟩ := exists_stage_eq_meaning size g
  by_contra hne
  exact hne ((hn c hne).symm.trans (h n))

theorem meaning_of_known (hs : source size g c = .known v) : meaning size g c = v :=
  walk_of_known hs .empty

/-- A formula cell means what its formula gives: the trail of the cell itself does not matter. -/
theorem meaning_of_stale (hs : source size g c = .stale e) :
    meaning size g c = e.denote (meaning size g) := by
  obtain ⟨n, hn⟩ := exists_stage_eq_meaning size g
  have hstage : ∀ b, stage size g n b ≠ .error .cycle →
      meaning size g b = stage size g n b := fun b hb => meaning_eq_stage hb
  by_cases hc : meaning size g c = .error .cycle
  · -- otherwise one stage more would give the cell the result of its formula
    rw [hc]
    by_contra hne
    have he : e.denote (stage size g n) = e.denote (meaning size g) :=
      Expr.denote_mono hn e (Ne.symm hne)
    have hsucc : meaning size g c = stage size g (n + 1) c := by
      refine meaning_eq_stage ?_
      rw [stage_of_stale hs, he]
      exact Ne.symm hne
    rw [stage_of_stale hs, he, hc] at hsucc
    exact hne hsucc
  · have hsucc : stage size g (n + 1) c = meaning size g c := by
      rw [stage_succ ((hn c hc).symm ▸ hc), hn c hc]
    rw [← hsucc, stage_of_stale hs] at hc ⊢
    exact (Expr.denote_mono hstage e hc).symm

/-- What cells mean is a number only if their references come to an end. -/
theorem acc_of_stage_eq_number {n : Nat} {x : Float} (h : stage size g n c = .number x) :
    Acc (fun b a => Refers size g a b) c := by
  induction n generalizing c x with
  | zero => cases h
  | succ n ih =>
    refine Acc.intro c fun b hb => ?_
    obtain ⟨hc, f, hf, hb⟩ := hb
    rw [stage_of_stale (source_eq_stale_iff.2 ⟨hc, f, hf, rfl⟩)] at h
    obtain ⟨y, hy⟩ := Expr.exists_number_of_denote _ h b hb
    exact ih hy

/-- Only acyclic cells mean numbers. -/
theorem acyclicFrom_of_meaning_eq_number {x : Float} (h : meaning size g c = .number x) :
    AcyclicFrom size g c := by
  obtain ⟨n, hn⟩ := exists_stage_eq_meaning size g
  have hstage : stage size g n c = .number x := (hn c (by simp [h])).trans h
  exact acyclicFrom_of_acc (acc_of_stage_eq_number hstage)

end Grid

end FormulaSheet
