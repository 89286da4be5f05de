import FormulaSheet.Proofs.Document.CyclicReads
import FormulaSheet.Proofs.Document.History

/-!
# What a value depends on

The value of a cell depends only on the cells that its references lead to. What else a document
holds makes no difference, and neither does how it came about: two documents may have different
histories, versions and memories, and cells on and above cycles are no exception. The stages of
`Grid.stage` show it, since a stage computes a formula from the cells that it refers to and from
nothing else.

## Main definitions

* `Grid.ClosedUnderReferences`: references do not lead out of a set of cells.

## Main results

* `Grid.meaning_congr`: cells that lead to the same contents mean the same.
* `Document.value_depends_on_reachable`: so they have the same value in any two documents.
-/

namespace FormulaSheet

/-! ### The meaning of cells -/

namespace Grid

open Evaluation

variable {size : Size} {g h : Grid} {S : Set CellRef}

/-- The references of the cells `S` lead to cells of `S`. -/
def ClosedUnderReferences (size : Size) (g : Grid) (S : Set CellRef) : Prop :=
  ∀ a ∈ S, ∀ b, Refers size g a b → b ∈ S

/-- The cells that a cell leads to are closed under references. -/
theorem closedUnderReferences_reaches (size : Size) (g : Grid) (c : CellRef) :
    ClosedUnderReferences size g {a | Reaches size g c a} :=
  fun _ ha _ hab => Relation.ReflTransGen.tail ha hab

/-- Where two grids have the same contents in cells closed under references, every stage gives these
cells the same values. -/
theorem stage_congr (hS : ClosedUnderReferences size g S)
    (hcontents : ∀ a ∈ S, g.contents[a]? = h.contents[a]?) (n : Nat) :
    ∀ a ∈ S, stage size g n a = stage size h n a := by
  induction n with
  | zero => exact fun _ _ => rfl
  | succ n ih =>
    intro a ha
    have hsource : source size h a = source size g a := (source_congr (hcontents a ha)).symm
    cases hs : source size g a with
    | known v => rw [stage_of_known hs, stage_of_known (hsource.trans hs)]
    | stale e =>
      rw [stage_of_stale hs, stage_of_stale (hsource.trans hs)]
      exact Expr.denote_congr e fun b hb => ih b (hS a ha b (refers_of_source hs hb))

/-- Where two grids have the same contents in cells closed under references, these cells mean the
same. -/
theorem meaning_congr (hS : ClosedUnderReferences size g S)
    (hcontents : ∀ a ∈ S, g.contents[a]? = h.contents[a]?) {c : CellRef} (hc : c ∈ S) :
    meaning size g c = meaning size h c := by
  obtain ⟨n, hn⟩ := exists_stage_eq_meaning size g
  obtain ⟨m, hm⟩ := exists_stage_eq_meaning size h
  have hstage := fun n => stage_congr hS hcontents n c hc
  by_cases hg : meaning size g c = .error .cycle
  · by_cases hh : meaning size h c = .error .cycle
    · rw [hg, hh]
    · have hreached : stage size g m c = meaning size h c := (hstage m).trans (hm c hh)
      rw [← hreached] at hh ⊢
      exact meaning_eq_stage hh
  · have hreached : stage size h n c = meaning size g c := (hstage n).symm.trans (hn c hg)
    rw [← hreached] at hg ⊢
    exact (meaning_eq_stage hg).symm

/-- References do not lead out of cells that are closed under them. -/
theorem ClosedUnderReferences.mem_of_reaches (hS : ClosedUnderReferences size g S) {a c : CellRef}
    (hc : c ∈ S) (hca : Reaches size g c a) : a ∈ S := by
  induction hca with
  | refl => exact hc
  | tail _ hab ha => exact hS _ ha _ hab

end Grid

namespace Document

open Evaluation Grid

/-- **A value depends on what can be reached.** After any two runs on sheets of one size and a new
version, a cell has the same value in both documents if they have the same contents in all cells
that its references lead to in one of them. -/
theorem value_depends_on_reachable (size : Size) (ops ops' : List Operation) (c : CellRef)
    (h : ∀ a, Reaches size (run size (ops ++ [.endCycle])).sheet.grid c a →
      (run size (ops ++ [.endCycle])).contents[a]? =
        (run size (ops' ++ [.endCycle])).contents[a]?) :
    ((value c).run (run size (ops ++ [.endCycle]))).1 =
      ((value c).run (run size (ops' ++ [.endCycle]))).1 := by
  have hvalue : ∀ ops, ((value c).run (run size (ops ++ [.endCycle]))).1 =
      meaning size (run size (ops ++ [.endCycle])).sheet.grid c := by
    intro ops
    have hmeaning := (isStale_of_endCycle size ops).value_eq c
    rwa [size_run] at hmeaning
  rw [hvalue, hvalue]
  exact meaning_congr (closedUnderReferences_reaches size _ c) h Relation.ReflTransGen.refl

/-- Two cells that refer to each other, and a number beside them. -/
private def cycleEdits : List Operation :=
  [.setInput ⟨0, 0⟩ "=:1:0+1", .setInput ⟨1, 0⟩ "=nofunc()*:0:0", .setInput ⟨2, 2⟩ "7"]

/-- The same two cells after edits that were undone, reads and a new version, and a formula above
them. -/
private def detouredEdits : List Operation :=
  [.setInput ⟨1, 0⟩ "=nofunc()*:0:0", .setInput ⟨0, 0⟩ "5", .read (.value ⟨1, 0⟩), .endCycle,
    .setInput ⟨0, 0⟩ "= :1:0 + 1", .setInput ⟨2, 2⟩ "=:0:0", .read (.display ⟨2, 2⟩),
    .setInput ⟨0, 0⟩ "", .undo, .read (.value ⟨1, 0⟩)]

private theorem closedUnderReferences_cycleEdits :
    ClosedUnderReferences ⟨3, 3⟩ (run ⟨3, 3⟩ (cycleEdits ++ [.endCycle])).sheet.grid
      {a | a ∈ [⟨0, 0⟩, ⟨1, 0⟩]} := by
  have hrefs : ∀ a ∈ ([⟨0, 0⟩, ⟨1, 0⟩] : List CellRef),
      ∀ b ∈ ((run ⟨3, 3⟩ (cycleEdits ++ [.endCycle])).sheet.grid[a]?.map Cell.refs).getD [],
        b ∈ ([⟨0, 0⟩, ⟨1, 0⟩] : List CellRef) := by
    decide +kernel
  exact fun a ha b hab => hrefs a ha b ((refers_iff _ _ _ _).1 hab).2

private theorem contents_detouredEdits : ∀ a ∈ ([⟨0, 0⟩, ⟨1, 0⟩] : List CellRef),
    (run ⟨3, 3⟩ (cycleEdits ++ [.endCycle])).contents[a]? =
      (run ⟨3, 3⟩ (detouredEdits ++ [.endCycle])).contents[a]? := by
  decide +kernel

/-- Two documents of different histories have the same value for a cell on a cycle. -/
theorem value_depends_on_reachable_onCycle :
    (∀ a, Reaches ⟨3, 3⟩ (run ⟨3, 3⟩ (cycleEdits ++ [.endCycle])).sheet.grid ⟨0, 0⟩ a →
      (run ⟨3, 3⟩ (cycleEdits ++ [.endCycle])).contents[a]? =
        (run ⟨3, 3⟩ (detouredEdits ++ [.endCycle])).contents[a]?) ∧
      ((value ⟨0, 0⟩).run (run ⟨3, 3⟩ (cycleEdits ++ [.endCycle]))).1 =
        ((value ⟨0, 0⟩).run (run ⟨3, 3⟩ (detouredEdits ++ [.endCycle]))).1 := by
  have h : ∀ a, Reaches ⟨3, 3⟩ (run ⟨3, 3⟩ (cycleEdits ++ [.endCycle])).sheet.grid ⟨0, 0⟩ a →
      (run ⟨3, 3⟩ (cycleEdits ++ [.endCycle])).contents[a]? =
        (run ⟨3, 3⟩ (detouredEdits ++ [.endCycle])).contents[a]? := by
    intro a ha
    refine contents_detouredEdits a (closedUnderReferences_cycleEdits.mem_of_reaches ?_ ha)
    exact List.mem_cons_self
  exact ⟨h, value_depends_on_reachable ⟨3, 3⟩ cycleEdits detouredEdits ⟨0, 0⟩ h⟩

end Document

end FormulaSheet
