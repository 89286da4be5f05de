import FormulaSheet.Proofs.Document.Reading
import FormulaSheet.Proofs.Evaluation.Exactness
import FormulaSheet.Proofs.Evaluation.Spreading

/-!
# Reading sheets with cycles

Right after a new version nothing that is remembered counts, and the first read gives what an
evaluation without memory gives, whether there are cycles or not. The reads after it give the same,
or else the cycle error: an unsettled cell remembers the cycle error if it is looked at by a masked
operand of a cell that it needs. These are the only cells for which the order of reads matters, and
for each of them there is an order in which it does. Above a cycle all reads give errors.

## Main definitions

* `Sheet.IsStale`: nothing that is remembered counts.

## Main results

* `Document.first_read`: the first read at a version gives what walks without memory give.
* `Document.value_error_above_cycle`: a cell above a cycle has an error.
* `Document.value_depends_on_reads`: a cell whose error depends on the order of reads.
* `Document.value_after_either_reads`: the order of reads matters for unsettled cells only.
-/

namespace FormulaSheet

open Evaluation Grid Relation

/-! ### The first read -/

namespace Sheet

/-- Nothing that is remembered for the formulas of a sheet counts at its version. -/
def IsStale (s : Sheet) : Prop :=
  ∀ (c : CellRef) (f : Formula), s.grid[c]? = some (.formula f) → f.cached? s.version = none

variable {s : Sheet}

/-- The value of a cell read first is what the cell means. -/
theorem IsStale.value_eq (hs : s.IsStale) (c : CellRef) :
    (s.value c).1 = meaning s.size s.grid c := by
  obtain ⟨v, s', hv, hrun⟩ := s.exists_runs_value c
  rw [hv]
  exact hrun.eq_denote rfl (memosSatisfy_of_forall_stale hs) rfl

/-- The value of an expression read first is what its cells mean for it. -/
theorem IsStale.valueOf_eq (hs : s.IsStale) (e : Expr) :
    (s.valueOf e).1 = e.denote (meaning s.size s.grid) := by
  obtain ⟨v, s', hv, hrun⟩ := s.exists_runs_valueOf e
  rw [hv]
  exact hrun.eq_denote rfl (memosSatisfy_of_forall_stale hs) rfl

end Sheet

namespace Document

/-- After a new version nothing that is remembered counts. -/
theorem isStale_of_endCycle (size : Size) (ops : List Operation) :
    (run size (ops ++ [.endCycle])).sheet.IsStale :=
  fun _ _ hf => cached?_of_endCycle size ops hf

/-- **Memory cannot be seen by the first read.** After any run and a new version, the value of a
cell, and the value of a formula that is not stored, are those that walks without memory give. -/
theorem first_read (size : Size) (ops : List Operation) (c : CellRef) (text : String) :
    ((value c).run (run size (ops ++ [.endCycle]))).1 =
        walk size (run size (ops ++ [.endCycle])).sheet.grid .empty c ∧
      ((evaluate text).run.run (run size (ops ++ [.endCycle]))).1 =
        match Expr.parse (formulaText text) with
        | .error e => .error (.invalidFormula e)
        | .ok e => .ok (e.denote (walk size (run size (ops ++ [.endCycle])).sheet.grid .empty)) := by
  have hsize := size_run size (ops ++ [.endCycle])
  have hstale := isStale_of_endCycle size ops
  revert hsize hstale
  generalize run size (ops ++ [.endCycle]) = d
  rintro rfl hstale
  refine ⟨hstale.value_eq c, ?_⟩
  rw [run_evaluate]
  cases Expr.parse (formulaText text) with
  | error e => rfl
  | ok e => exact congrArg Except.ok (hstale.valueOf_eq e)

/-! ### Later reads -/

variable {d : Document}

/-- The value of a cell after reads is what the cell means, or the cycle error if the cell is
unsettled. -/
theorem value_afterReads_eq_meaning_or_unsettled (hd : d.sheet.IsStale) (rs : List Read)
    (c : CellRef) :
    ((value c).run (d.afterReads rs)).1 = meaning d.sheet.size d.sheet.grid c ∨
      ((value c).run (d.afterReads rs)).1 = .error .cycle ∧
        Unsettled d.sheet.size d.sheet.grid c := by
  obtain ⟨g, s', hcontents, hmemos, hrun⟩ := d.exists_runs_value_afterReads rs c
    (Q := MemosSettled d.sheet.size d.sheet.version d.sheet.grid) (memosSatisfy_of_forall_stale hd)
    fun t r s s' hrun hempty he hs => (hrun.memosSettled_and_eq (.of_empty he hs hempty)).1
  refine (hrun.memosSettled_and_eq (.of_empty hcontents hmemos rfl)).2.imp id ?_
  rintro ⟨hcycle, b, hlooks, hb⟩
  cases hlooks with
  | cell => exact ⟨hcycle, hb.resolve_right fun ⟨hmem, _⟩ => absurd hmem List.not_mem_nil⟩

/-- There is a read after which an unsettled cell has the cycle error. -/
theorem exists_value_afterReads_eq_cycle (hd : d.sheet.IsStale) {c : CellRef}
    (hc : Unsettled d.sheet.size d.sheet.grid c) :
    ∃ b, ((value c).run (d.afterReads [.value b])).1 = .error .cycle := by
  obtain ⟨b, hb⟩ := exists_runs_eq_cycle hd hc
  obtain ⟨v, s, hv, hfirst⟩ := d.sheet.exists_runs_value b
  obtain ⟨w, s', hw, hsecond⟩ := (d.withGrid s.grid).sheet.exists_runs_value c
  have hvalue : ((value c).run (d.afterReads [.value b])).1 = w := by
    change ((d.sheet.value b).2.value c).1 = w
    rw [hv]
    exact congrArg Prod.fst hw
  exact ⟨b, hvalue.trans (hb hfirst hsecond)⟩

/-! ### Errors above a cycle -/

/-- **A cycle gives no number.** After any run, a new version and any reads, a cell from which
references lead to a cell that leads back to itself has an error. -/
theorem value_error_above_cycle (size : Size) (ops : List Operation) (rs : List Read)
    {c a : CellRef} (hca : Reaches size (run size (ops ++ [.endCycle])).sheet.grid c a)
    (ha : TransGen (Refers size (run size (ops ++ [.endCycle])).sheet.grid) a a) :
    ∃ e, ((value c).run ((run size (ops ++ [.endCycle])).afterReads rs)).1 = .error e := by
  have hvalue := value_afterReads_eq_meaning_or_unsettled (isStale_of_endCycle size ops) rs c
  rw [size_run] at hvalue
  rcases hvalue with hvalue | ⟨hvalue, -⟩
  · cases hmeaning : meaning size (run size (ops ++ [.endCycle])).sheet.grid c with
    | error e => exact ⟨e, hvalue.trans hmeaning⟩
    | number x => exact absurd ha (acyclicFrom_of_meaning_eq_number hmeaning a hca)
  · exact ⟨.cycle, hvalue⟩

/-- A cell with an unknown function in front of a reference, a cell that refers back to it, and a
cell above the two. -/
private def maskedCycleEdits : List Operation :=
  [.setInput ⟨0, 0⟩ "=nofunc()+:1:0", .setInput ⟨1, 0⟩ "=:0:0", .setInput ⟨2, 0⟩ "=sum(1,:1:0)*2"]

private def maskedCycle : Document :=
  run ⟨4, 4⟩ (maskedCycleEdits ++ [.endCycle])

private theorem refers_maskedCycle :
    Refers ⟨4, 4⟩ maskedCycle.sheet.grid ⟨0, 0⟩ ⟨1, 0⟩ ∧
      Refers ⟨4, 4⟩ maskedCycle.sheet.grid ⟨1, 0⟩ ⟨0, 0⟩ ∧
      Refers ⟨4, 4⟩ maskedCycle.sheet.grid ⟨2, 0⟩ ⟨1, 0⟩ := by
  decide +kernel

/-- A cell above a cycle has an error, after reads of the cells on the cycle too. -/
theorem value_error_above_maskedCycle :
    Reaches ⟨4, 4⟩ maskedCycle.sheet.grid ⟨2, 0⟩ ⟨1, 0⟩ ∧
      TransGen (Refers ⟨4, 4⟩ maskedCycle.sheet.grid) ⟨1, 0⟩ ⟨1, 0⟩ ∧
      ∃ e, ((value ⟨2, 0⟩).run (maskedCycle.afterReads [.value ⟨0, 0⟩, .display ⟨1, 0⟩])).1 =
        .error e := by
  obtain ⟨hto, hback, habove⟩ := refers_maskedCycle
  have hreaches := ReflTransGen.single habove
  have hcycle := (TransGen.single hback).tail hto
  exact ⟨hreaches, hcycle, value_error_above_cycle ⟨4, 4⟩ maskedCycleEdits _ hreaches hcycle⟩

/-! ### The order of reads -/

/-- The error of a cell on a cycle depends on what is read before it: read first, the cell that
refers back has the error of the unknown function, but after the other cell it has the cycle
error. -/
theorem value_depends_on_reads :
    Reaches ⟨4, 4⟩ maskedCycle.sheet.grid ⟨1, 0⟩ ⟨1, 0⟩ ∧
      TransGen (Refers ⟨4, 4⟩ maskedCycle.sheet.grid) ⟨1, 0⟩ ⟨1, 0⟩ ∧
      ((value ⟨1, 0⟩).run (maskedCycle.afterReads [])).1 = .error .name ∧
      ((value ⟨1, 0⟩).run (maskedCycle.afterReads [.value ⟨0, 0⟩])).1 = .error .cycle := by
  obtain ⟨hto, hback, -⟩ := refers_maskedCycle
  exact ⟨.refl, (TransGen.single hback).tail hto, by decide +kernel, by decide +kernel⟩

/-- **The order of reads.** After any run and a new version, all sequences of reads leave a cell
with the same value, unless the cell is unsettled; then some sequences leave it with different ones.
Each of these values is the one that is read first or the cycle error. -/
theorem value_after_either_reads (size : Size) (ops : List Operation) (c : CellRef) :
    let d := run size (ops ++ [.endCycle])
    let v := fun rs : List Read => ((value c).run (d.afterReads rs)).1
    ((∀ rs rs', v rs = v rs') ↔ ¬ Unsettled size d.sheet.grid c) ∧
      ∀ rs, v rs = v [] ∨ v rs = .error .cycle := by
  intro d v
  have hstale : d.sheet.IsStale := isStale_of_endCycle size ops
  have hsize : d.sheet.size = size := size_run size _
  have hfirst : v [] = meaning size d.sheet.grid c := hsize ▸ hstale.value_eq c
  have hvalue : ∀ rs, v rs = v [] ∨ v rs = .error .cycle ∧ Unsettled size d.sheet.grid c := by
    intro rs
    rw [hfirst, ← hsize]
    exact value_afterReads_eq_meaning_or_unsettled hstale rs c
  refine ⟨⟨fun hsame hc => ?_, fun hc rs rs' => ?_⟩, fun rs => (hvalue rs).imp id And.left⟩
  · obtain ⟨b, hb⟩ := exists_value_afterReads_eq_cycle hstale (hsize ▸ hc)
    have hcycle : meaning size d.sheet.grid c = .error .cycle :=
      hfirst.symm.trans ((hsame [] [.value b]).trans hb)
    exact hc.1 hcycle
  · have hrs : ∀ rs, v rs = v [] := fun rs => (hvalue rs).resolve_right fun h => hc h.2
    rw [hrs rs, hrs rs']

end Document

end FormulaSheet
