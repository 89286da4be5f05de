import FormulaSheet.Proofs.Document.Step
import FormulaSheet.Proofs.Evaluation.Memoization

/-!
# Reading a document

The values read at one version are those that the formulas mean, for all cells above no cycle: a new
version makes everything remembered stale, and what the reads remember afterwards is right.

## Main results

* `Document.stampedUpTo_run`: nothing in a document was remembered at a later version.
* `Document.value_after_reads`: the value of an acyclic cell, read after other reads.
-/

namespace FormulaSheet

open Evaluation Grid

namespace Sheet

variable {s : Sheet} {g : Grid}

theorem AfterRead.stampedUpTo (h : s.AfterRead g) (hs : s.grid.StampedUpTo s.version) :
    g.StampedUpTo s.version := by
  obtain rfl | ⟨t, r, s', hrun, rfl⟩ := h
  · exact hs
  · exact hrun.stampedUpTo hs

/-- The value of an acyclic cell is the one that the formulas mean, when what is remembered
agrees. -/
theorem hasValue_value {base : Grid} (he : s.grid.contents = base.contents)
    (hs : MemosAgree s.size s.version base s.grid) {c : CellRef}
    (hc : AcyclicFrom s.size base c) : HasValue s.size base c (s.value c).1 := by
  obtain ⟨v, s', hv, hrun⟩ := s.exists_runs_value c
  obtain ⟨-, hagrees⟩ := hrun.memosAgree_and_agrees he hs fun a ha =>
    absurd ha (by simp [Trail.empty])
  rw [hv]
  exact hagrees fun b hb => List.mem_singleton.1 hb ▸ hc

/-- Forgetting is unobservable above no cycle. -/
theorem value_forget (hs : MemosAgree s.size s.version s.grid s.grid) {c : CellRef}
    (hc : AcyclicFrom s.size s.grid c) (a : CellRef) :
    ({ s with grid := s.grid.forget a }.value c).1 = (s.value c).1 := by
  have hforget : MemosAgree s.size s.version s.grid (s.grid.forget a) :=
    MemosSatisfy.forget (P := fun c v => AcyclicFrom s.size s.grid c → HasValue s.size s.grid c v)
      hs a
  have hvalue := hasValue_value (s := { s with grid := s.grid.forget a }) (contents_forget s.grid a)
    hforget hc
  exact hvalue.unique (hasValue_value rfl hs hc)

end Sheet

namespace Document

/-! ### Remembered values along a run -/

theorem Step.stampedUpTo {d d' : Document} {op : Operation} (h : Step d op d')
    (hd : d.sheet.grid.StampedUpTo d.sheet.version) :
    d'.sheet.grid.StampedUpTo d'.sheet.version := by
  cases h with
  | outOfBounds | invalid | absent | nothingToUndo | nothingToRedo => exact hd
  | set _ hk => exact hd.put _ (Cell.stampedUpTo_of_forget_eq (Cell.forget_of_ofInput hk))
  | cleared => exact hd.erase _
  | undone | redone => exact hd.restore _ _
  | cycleEnded => exact hd.mono (Nat.le_succ _)
  | read hread => exact hread.stampedUpTo hd

/-- Nothing in the grid of a document was remembered at a later version than its own. -/
theorem stampedUpTo_run (size : Size) (ops : List Operation) :
    (run size ops).sheet.grid.StampedUpTo (run size ops).sheet.version :=
  run_induction (P := fun d => d.sheet.grid.StampedUpTo d.sheet.version) stampedUpTo_empty
    (fun hstep hd => hstep.stampedUpTo hd) ops

/-- After a new version nothing that is remembered counts. -/
theorem cached?_of_endCycle (size : Size) (ops : List Operation) {c : CellRef} {f : Formula}
    (hf : (run size (ops ++ [.endCycle])).sheet.grid[c]? = some (.formula f)) :
    f.cached? (run size (ops ++ [.endCycle])).sheet.version = none := by
  rw [run_append_singleton] at hf ⊢
  exact (stampedUpTo_run size ops).cached?_eq_none hf (Nat.lt_succ_self _)

/-! ### Reads at one version -/

/-- What evaluations on the empty trail keep is kept by reads. -/
theorem exists_afterReads_eq {Q : Grid → Prop} (d : Document) (rs : List Read)
    (hd : Q d.sheet.grid)
    (hQ : ∀ (t : Task) (r : t.Result) (s s' : State), Runs d.sheet.size d.sheet.version t s r s' →
      s.trail = .empty → s.grid.contents = d.sheet.grid.contents → Q s.grid → Q s'.grid) :
    ∃ g, d.afterReads rs = d.withGrid g ∧ g.contents = d.sheet.grid.contents ∧ Q g := by
  induction rs using List.reverseRecOn with
  | nil => exact ⟨d.sheet.grid, rfl, rfl, hd⟩
  | append_singleton rs r ih =>
    obtain ⟨g, hg, hcontents, hQg⟩ := ih
    obtain ⟨g', hg', hread⟩ := r.exists_after_eq (d.withGrid g)
    refine ⟨g', ?_, hread.contents_eq.trans hcontents, ?_⟩
    · rw [afterReads_append_singleton, hg, hg']
      rfl
    · obtain rfl | ⟨t, v, s', hrun, rfl⟩ := hread
      · exact hQg
      · exact hQ t v _ s' hrun rfl hcontents hQg

/-- The value of a cell after reads comes about by an evaluation of a grid with the same contents
and with what evaluations on the empty trail keep. -/
theorem exists_runs_value_afterReads {Q : Grid → Prop} (d : Document) (rs : List Read) (c : CellRef)
    (hd : Q d.sheet.grid)
    (hQ : ∀ (t : Task) (r : t.Result) (s s' : State), Runs d.sheet.size d.sheet.version t s r s' →
      s.trail = .empty → s.grid.contents = d.sheet.grid.contents → Q s.grid → Q s'.grid) :
    ∃ g s', g.contents = d.sheet.grid.contents ∧ Q g ∧
      Runs d.sheet.size d.sheet.version (.cell c) ⟨g, .empty⟩
        ((value c).run (d.afterReads rs)).1 s' := by
  obtain ⟨g, hg, hcontents, hQg⟩ := d.exists_afterReads_eq rs hd hQ
  obtain ⟨v, s', hv, hrun⟩ := (d.withGrid g).sheet.exists_runs_value c
  have hvalue : ((value c).run (d.afterReads rs)).1 = v := by
    rw [hg]
    exact congrArg Prod.fst hv
  exact ⟨g, s', hcontents, hQg, hvalue ▸ hrun⟩

/-- Reads keep the contents, and what is remembered after them agrees with the grid before them if
what was remembered before them did. -/
theorem afterReads_agrees (d : Document) (rs : List Read)
    (hd : MemosAgree d.sheet.size d.sheet.version d.sheet.grid d.sheet.grid) :
    ∃ g, d.afterReads rs = d.withGrid g ∧ g.contents = d.sheet.grid.contents ∧
      MemosAgree d.sheet.size d.sheet.version d.sheet.grid g :=
  d.exists_afterReads_eq rs hd fun _ _ _ _ hrun hempty he hs =>
    (hrun.memosAgree_and_agrees he hs fun _ ha => absurd (hempty ▸ ha) List.not_mem_nil).1

/-! ### A cell beside a cycle -/

/-- A number, a formula that refers to it, and a formula that refers to itself and to the other. -/
private def besideCycle : List Operation :=
  [.setInput ⟨0, 0⟩ "2", .setInput ⟨0, 1⟩ "=:0:0*10", .setInput ⟨1, 0⟩ "=:1:0+:0:1"]

private theorem refs_besideCycle :
    ((run ⟨2, 2⟩ (besideCycle ++ [.endCycle])).sheet.grid[(⟨0, 0⟩ : CellRef)]?).map Cell.refs =
        some [] ∧
      ((run ⟨2, 2⟩ (besideCycle ++ [.endCycle])).sheet.grid[(⟨0, 1⟩ : CellRef)]?).map Cell.refs =
        some [⟨0, 0⟩] := by
  decide +kernel

private theorem acyclicFrom_besideCycle :
    AcyclicFrom ⟨2, 2⟩ (run ⟨2, 2⟩ (besideCycle ++ [.endCycle])).sheet.grid ⟨0, 1⟩ := by
  obtain ⟨hnumber, hformula⟩ := refs_besideCycle
  refine acyclicFrom_of_acc (Acc.intro _ ?_)
  rintro b ⟨-, f, hf, hb⟩
  rw [hf] at hformula
  have hrefs : f.expr.refs = [⟨0, 0⟩] := Option.some.inj hformula
  rw [hrefs] at hb
  obtain rfl := List.mem_singleton.1 hb
  refine Acc.intro _ ?_
  rintro b' ⟨-, f', hf', hb'⟩
  rw [hf'] at hnumber
  have hrefs' : f'.expr.refs = [] := Option.some.inj hnumber
  rw [hrefs'] at hb'
  exact absurd hb' List.not_mem_nil

/-! ### The value of an acyclic cell -/

/-- **Remembering is unobservable above no cycle.** After any run, a new version and any reads, the
value of a cell from which no cycle of references can be reached is the one that the formulas mean,
computed without memory and without a trail. It is the only such value and never the cycle error. -/
theorem value_after_reads (size : Size) (ops : List Operation) (rs : List Read) (c : CellRef)
    (hc : AcyclicFrom size (run size (ops ++ [.endCycle])).sheet.grid c) :
    ∃ v, ((value c).run ((run size (ops ++ [.endCycle])).afterReads rs)).1 = v ∧
      HasValue size (run size (ops ++ [.endCycle])).sheet.grid c v ∧
      (∀ w, HasValue size (run size (ops ++ [.endCycle])).sheet.grid c w → w = v) ∧
      v ≠ .error .cycle := by
  have hsize := size_run size (ops ++ [.endCycle])
  have hstale := fun (a : CellRef) (f : Formula) => cached?_of_endCycle size ops (c := a) (f := f)
  revert hc hsize hstale
  generalize run size (ops ++ [.endCycle]) = d
  rintro hc rfl hstale
  obtain ⟨g, hg, hcontents, hmemos⟩ := d.afterReads_agrees rs (memosAgree_of_forall_stale hstale)
  have hvalue : HasValue d.sheet.size d.sheet.grid c
      ((value c).run (d.afterReads rs)).1 := by
    rw [hg]
    exact Sheet.hasValue_value (s := (d.withGrid g).sheet) hcontents hmemos hc
  exact ⟨_, rfl, hvalue, fun w hw => hw.unique hvalue, hvalue.ne_cycle⟩

/-- A read of a cell on a cycle leaves the value of the acyclic cell beside it alone. -/
theorem value_after_reads_besideCycle :
    AcyclicFrom ⟨2, 2⟩ (run ⟨2, 2⟩ (besideCycle ++ [.endCycle])).sheet.grid ⟨0, 1⟩ ∧
      ∃ v, ((value ⟨0, 1⟩).run
          ((run ⟨2, 2⟩ (besideCycle ++ [.endCycle])).afterReads [.value ⟨1, 0⟩])).1 = v ∧
        HasValue ⟨2, 2⟩ (run ⟨2, 2⟩ (besideCycle ++ [.endCycle])).sheet.grid ⟨0, 1⟩ v ∧
        (∀ w, HasValue ⟨2, 2⟩ (run ⟨2, 2⟩ (besideCycle ++ [.endCycle])).sheet.grid ⟨0, 1⟩ w →
          w = v) ∧
        v ≠ .error .cycle :=
  ⟨acyclicFrom_besideCycle,
    value_after_reads ⟨2, 2⟩ besideCycle [.value ⟨1, 0⟩] ⟨0, 1⟩ acyclicFrom_besideCycle⟩

end Document

end FormulaSheet
