import FormulaSheet.Proofs.Evaluation.References

/-!
# What formulas mean

The meaning of a formula needs no memory and no trail: its value is given by recursion on its
expression from the values of the cells that it refers to. A cell has a value when the cells that
its formula refers to have one. So cells above no cycle have exactly one value, and it is never the
cycle error.

## Main definitions

* `Expr.denote`: the value of an expression, given the values of all cells.
* `Grid.HasValue`: the value of a cell.

## Main results

* `Grid.HasValue.unique`: a cell has at most one value.
* `Grid.exists_hasValue`: an acyclic cell has a value.
* `Grid.HasValue.ne_cycle`: no value is the cycle error.
-/

namespace FormulaSheet

/-! ### Expressions -/

namespace Expr

mutual

/-- The value of an expression where the cells have the values `env`. The error of a left operand
comes before that of the right one. A name that is unknown comes before the arguments, and the first
error among the arguments before a wrong number of them. -/
def denote (env : CellRef → Value) : Expr → Value
  | constant x _ => .number x
  | ref c _ => env c
  | binary op l r _ =>
    match l.denote env, r.denote env with
    | .error err, _ => .error err
    | .number _, .error err => .error err
    | .number x, .number y => .number (op.apply x y)
  | call name args _ =>
    match Builtin.find? name with
    | none => .error .name
    | some f =>
      match denoteArgs env args with
      | .error err => .error err
      | .ok xs => if f.arity.accepts xs.length then .number (f.reduce xs) else .error .argument

/-- The numbers of the arguments of a call, or the first error among them. -/
def denoteArgs (env : CellRef → Value) : List Expr → Except EvalError (List Float)
  | [] => .ok []
  | e :: es =>
    match e.denote env, denoteArgs env es with
    | .error err, _ => .error err
    | .number _, .error err => .error err
    | .number x, .ok xs => .ok (x :: xs)

end

mutual

/-- The value of an expression depends on the cells it refers to only. -/
theorem denote_congr {env env' : CellRef → Value} : (e : Expr) →
    (∀ c ∈ e.refs, env c = env' c) → e.denote env = e.denote env'
  | constant _ _, _ => rfl
  | ref c _, h => h c (by simp [refs])
  | binary _ l r _, h => by
    have hl : l.denote env = l.denote env' :=
      denote_congr l fun c hc => h c (by simp [refs, hc])
    have hr : r.denote env = r.denote env' :=
      denote_congr r fun c hc => h c (by simp [refs, hc])
    simp only [denote, hl, hr]
  | call _ args _, h => by
    have hargs : denoteArgs env args = denoteArgs env' args :=
      denoteArgs_congr args fun c hc => h c (by simpa [refs] using hc)
    simp only [denote, hargs]

/-- The values of arguments depend on the cells they refer to only. -/
theorem denoteArgs_congr {env env' : CellRef → Value} : (es : List Expr) →
    (∀ c ∈ refsOfArgs es, env c = env' c) → denoteArgs env es = denoteArgs env' es
  | [], _ => rfl
  | e :: es, h => by
    have he : e.denote env = e.denote env' :=
      denote_congr e fun c hc => h c (by simp [refsOfArgs, hc])
    have hes : denoteArgs env es = denoteArgs env' es :=
      denoteArgs_congr es fun c hc => h c (by simp [refsOfArgs, hc])
    simp only [denoteArgs, he, hes]

end

mutual

/-- Where no cell has the cycle error no expression has it. -/
theorem denote_ne_cycle {env : CellRef → Value} : (e : Expr) →
    (∀ c ∈ e.refs, env c ≠ .error .cycle) → e.denote env ≠ .error .cycle
  | constant _ _, _ => by simp [denote]
  | ref c _, h => h c (by simp [refs])
  | binary _ l r _, h => by
    have hl := denote_ne_cycle l fun c hc => h c (by simp [refs, hc])
    have hr := denote_ne_cycle r fun c hc => h c (by simp [refs, hc])
    rw [denote]
    cases hx : l.denote env with
    | error err => simpa [hx] using hl
    | number x =>
      cases hy : r.denote env with
      | error err => simpa [hy] using hr
      | number y => simp
  | call name args _, h => by
    have hargs := denoteArgs_ne_cycle args fun c hc => h c (by simpa [refs] using hc)
    rw [denote]
    cases Builtin.find? name with
    | none => simp
    | some f =>
      cases hxs : denoteArgs env args with
      | error err => simpa [hxs] using hargs
      | ok xs => by_cases hf : f.arity.accepts xs.length <;> simp [hf]

/-- Where no cell has the cycle error it is not the first error of arguments. -/
theorem denoteArgs_ne_cycle {env : CellRef → Value} : (es : List Expr) →
    (∀ c ∈ refsOfArgs es, env c ≠ .error .cycle) → denoteArgs env es ≠ .error .cycle
  | [], _ => by simp [denoteArgs]
  | e :: es, h => by
    have he := denote_ne_cycle e fun c hc => h c (by simp [refsOfArgs, hc])
    have hes := denoteArgs_ne_cycle es fun c hc => h c (by simp [refsOfArgs, hc])
    rw [denoteArgs]
    cases hx : e.denote env with
    | error err => simpa [hx] using he
    | number x =>
      cases hxs : denoteArgs env es with
      | error err => simpa [hxs] using hes
      | ok xs => simp

end

end Expr

/-! ### Cells -/

namespace Grid

/-- The value of a cell: the position error outside the sheet, the number of a number cell, the
value of the expression of a formula cell from the values of the cells it refers to, and the type
error for all other cells. -/
inductive HasValue (size : Size) (g : Grid) : CellRef → Value → Prop where
  | outside {c} (hc : size.contains c = false) : HasValue size g c (.error .position)
  | absent {c} (hc : size.contains c = true) (h : g[c]? = none) :
      HasValue size g c (.error .cellType)
  | blank {c} (hc : size.contains c = true) (h : g[c]? = some .empty) :
      HasValue size g c (.error .cellType)
  | text {c s} (hc : size.contains c = true) (h : g[c]? = some (.text s)) :
      HasValue size g c (.error .cellType)
  | number {c x} (hc : size.contains c = true) (h : g[c]? = some (.number x)) :
      HasValue size g c (.number x)
  | formula {c} {f : Formula} (hc : size.contains c = true) (h : g[c]? = some (.formula f))
      (env : CellRef → Value) (henv : ∀ b ∈ f.expr.refs, HasValue size g b (env b)) :
      HasValue size g c (f.expr.denote env)

variable {size : Size} {g h : Grid} {c : CellRef} {v w : Value}

/-- A cell has at most one value. -/
theorem HasValue.unique (hv : HasValue size g c v) (hw : HasValue size g c w) : v = w := by
  induction hv generalizing w with
  | outside hc => cases hw <;> simp_all
  | absent hc h => cases hw <;> simp_all
  | blank hc h => cases hw <;> simp_all
  | text hc h => cases hw <;> simp_all
  | number hc h => cases hw <;> simp_all
  | formula hc h env henv ih =>
    cases hw with
    | formula hc' h' env' henv' =>
      rw [h, Option.some.injEq, Cell.formula.injEq] at h'
      subst h'
      exact Expr.denote_congr _ fun b hb => ih b hb (henv' b hb)
    | outside | absent | blank | text | number => simp_all

/-- No value is the cycle error. -/
theorem HasValue.ne_cycle (hv : HasValue size g c v) : v ≠ .error .cycle := by
  induction hv with
  | outside | absent | blank | text | number => simp
  | formula _ _ env _ ih => exact Expr.denote_ne_cycle _ ih

/-- An acyclic cell has a value. -/
theorem exists_hasValue (hc : AcyclicFrom size g c) : ∃ v, HasValue size g c v := by
  have hacc := acc_of_acyclicFrom hc
  clear hc
  induction hacc with
  | intro c _ ih =>
    cases hin : size.contains c with
    | false => exact ⟨_, .outside hin⟩
    | true =>
      rcases hk : g[c]? with _ | k
      · exact ⟨_, .absent hin hk⟩
      · cases k with
        | empty => exact ⟨_, .blank hin hk⟩
        | text s => exact ⟨_, .text hin hk⟩
        | number x => exact ⟨_, .number hin hk⟩
        | formula f =>
          classical
          let env : CellRef → Value := fun b =>
            if hb : ∃ v, HasValue size g b v then hb.choose else .error .cycle
          refine ⟨_, .formula hin hk env fun b hb => ?_⟩
          have hex := ih b ⟨hin, f, hk, hb⟩
          simpa only [env, dif_pos hex] using hex.choose_spec

/-- The values of cells are a matter of the contents. -/
theorem HasValue.of_contents_eq (e : g.contents = h.contents) (hv : HasValue size g c v) :
    HasValue size h c v := by
  have hlookup : ∀ {a : CellRef} {k : Cell}, g[a]? = some k → k.forget = k →
      h[a]?.map Cell.forget = some k := by
    intro a k ha hk
    rw [← contents_eq_iff.1 e a, ha, Option.map_some, hk]
  induction hv with
  | outside hc => exact .outside hc
  | @absent a hc ha =>
    have hmap := contents_eq_iff.1 e a
    rw [ha, Option.map_none, eq_comm, Option.map_eq_none_iff] at hmap
    exact .absent hc hmap
  | blank hc ha =>
    obtain ⟨k, hk, hk'⟩ := Option.map_eq_some_iff.1 (hlookup ha rfl)
    cases k <;> simp [Cell.forget] at hk'
    exact .blank hc hk
  | text hc ha =>
    obtain ⟨k, hk, hk'⟩ := Option.map_eq_some_iff.1 (hlookup ha rfl)
    cases k <;> simp [Cell.forget] at hk'
    exact .text hc (hk' ▸ hk)
  | number hc ha =>
    obtain ⟨k, hk, hk'⟩ := Option.map_eq_some_iff.1 (hlookup ha rfl)
    cases k <;> simp [Cell.forget] at hk'
    exact .number hc (hk' ▸ hk)
  | @formula a f hc ha env _ ih =>
    obtain ⟨m, hm⟩ := exists_formula_of_contents_eq e ha
    exact .formula (f := ⟨f.expr, m⟩) hc hm env ih

end Grid

end FormulaSheet
