import FormulaSheet.Proofs.Evaluation.Termination
import Mathlib.Data.Set.Finite.List
import Mathlib.Logic.Relation
import Mathlib.Order.WellFounded

/-!
# References between cells

A formula cell inside the sheet refers to every cell whose reference is written anywhere in its
formula, whether the evaluator would look at it or not. A cell is acyclic when no cell that it leads
to leads back to itself. Since a grid holds finitely many formulas, following the references of an
acyclic cell comes to an end.

## Main definitions

* `Expr.refs`, `Cell.refs`: the cells that an expression and the formula of a cell refer to.
* `Grid.Refers`, `Grid.Reaches`: one and any number of references.
* `Grid.AcyclicFrom`: no cycle of references can be reached from a cell.

## Main results

* `Grid.acc_of_acyclicFrom`: the references of an acyclic cell are well-founded.
-/

namespace FormulaSheet

namespace Expr

mutual

/-- The cells that an expression refers to, in the order in which they are written. -/
def refs : Expr → List CellRef
  | constant _ _ => []
  | ref c _ => [c]
  | call _ args _ => refsOfArgs args
  | binary _ l r _ => l.refs ++ r.refs

/-- The cells that the arguments of a call refer to. -/
def refsOfArgs : List Expr → List CellRef
  | [] => []
  | e :: es => e.refs ++ refsOfArgs es

end

end Expr

/-- The cells that the formula of a cell refers to. -/
def Cell.refs : Cell → List CellRef
  | formula f => f.expr.refs
  | _ => []

namespace Grid

open Relation

variable {size : Size} {g h : Grid} {a b c : CellRef}

/-- The formula of `a`, a cell inside the sheet, refers to `b`. -/
def Refers (size : Size) (g : Grid) (a b : CellRef) : Prop :=
  size.contains a = true ∧ ∃ f : Formula, g[a]? = some (.formula f) ∧ b ∈ f.expr.refs

theorem refers_iff (size : Size) (g : Grid) (a b : CellRef) :
    Refers size g a b ↔ size.contains a = true ∧ b ∈ (g[a]?.map Cell.refs).getD [] := by
  refine and_congr_right fun _ => ?_
  cases hk : g[a]? with
  | none => simp
  | some k => cases k <;> simp [Cell.refs]

instance (size : Size) (g : Grid) (a b : CellRef) : Decidable (Refers size g a b) :=
  decidable_of_iff _ (refers_iff size g a b).symm

/-- References lead from `a` to `b`. -/
def Reaches (size : Size) (g : Grid) (a b : CellRef) : Prop :=
  ReflTransGen (Refers size g) a b

/-- No cycle of references can be reached from `c`. -/
def AcyclicFrom (size : Size) (g : Grid) (c : CellRef) : Prop :=
  ∀ a, Reaches size g c a → ¬ TransGen (Refers size g) a a

/-- What refers to what is a matter of the contents. -/
theorem refers_of_contents_eq (e : g.contents = h.contents) : Refers size g = Refers size h := by
  have himp : ∀ {g h : Grid}, g.contents = h.contents → ∀ a b, Refers size g a b →
      Refers size h a b := by
    rintro g h e a b ⟨ha, f, hf, hb⟩
    obtain ⟨m, hm⟩ := exists_formula_of_contents_eq e hf
    exact ⟨ha, _, hm, hb⟩
  funext a b
  exact propext ⟨himp e a b, himp e.symm a b⟩

theorem AcyclicFrom.of_refers (h : AcyclicFrom size g a) (hab : Refers size g a b) :
    AcyclicFrom size g b :=
  fun _ hb => h _ (ReflTransGen.head hab hb)

/-- A cell is acyclic when following its references comes to an end. -/
theorem acyclicFrom_of_acc (hc : Acc (fun b a => Refers size g a b) c) : AcyclicFrom size g c := by
  intro a hca
  have ha : Acc (fun b a => Refers size g a b) a := by
    induction hca with
    | refl => exact hc
    | tail _ hab ih => exact ih.inv hab
  clear hca
  induction ha with
  | intro a _ ih =>
    intro hcycle
    obtain ⟨b, hab, hba⟩ := TransGen.head'_iff.1 hcycle
    exact ih b hab (TransGen.tail' hba hab)

/-- The references of an acyclic cell are well-founded. -/
theorem acc_of_acyclicFrom (hc : AcyclicFrom size g c) :
    Acc (fun b a => Refers size g a b) c := by
  -- a cell without a formula refers to nothing
  have hother : ∀ a, a ∉ g.formulaCells → Acc (fun b a => Refers size g a b) a := by
    intro a ha
    refine Acc.intro a fun b hb => ?_
    obtain ⟨-, f, hf, -⟩ := hb
    exact absurd (mem_formulaCells.2 ⟨f, hf⟩) ha
  -- the formula cells that are reached are finitely many, and none reaches itself
  let S := {a : CellRef // a ∈ g.formulaCells ∧ Reaches size g c a}
  have hfinite : Finite S := by
    have : Finite {a : CellRef // a ∈ g.formulaCells} := g.formulaCells.finite_toSet
    exact Finite.of_injective (fun a : S => (⟨a.1, a.2.1⟩ : {a // a ∈ g.formulaCells}))
      fun a b hab => Subtype.ext (congrArg (·.1) hab)
  have hirrefl : Std.Irrefl (fun b a : S => TransGen (Refers size g) a.1 b.1) :=
    ⟨fun a => hc a.1 a.2.2⟩
  have htrans : IsTrans S (fun b a : S => TransGen (Refers size g) a.1 b.1) :=
    ⟨fun a b d hab hbd => hbd.trans hab⟩
  have hwf : WellFounded (fun b a : S => TransGen (Refers size g) a.1 b.1) :=
    Finite.wellFounded_of_trans_of_irrefl _
  have hformula : ∀ a : S, Acc (fun b a => Refers size g a b) a.1 := by
    intro a
    induction a using hwf.induction with
    | _ a ih =>
      refine Acc.intro a.1 fun b hb => ?_
      by_cases hmem : b ∈ g.formulaCells
      · exact ih ⟨b, hmem, a.2.2.tail hb⟩ (TransGen.single hb)
      · exact hother b hmem
  by_cases hmem : c ∈ g.formulaCells
  · exact hformula ⟨c, hmem, ReflTransGen.refl⟩
  · exact hother c hmem

end Grid

end FormulaSheet
