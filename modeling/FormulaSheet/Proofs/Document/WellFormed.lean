import FormulaSheet.Proofs.Document.Reading
import FormulaSheet.Proofs.Grammar.Canonical

/-!
# Well-formed documents

What a document stores, in its grid and in its history, was entered by a user and perhaps computed
since. So it lies inside the sheet, it is not empty, its formula is read from its own text, and what
is remembered for it was remembered at a version that the sheet has had. Every operation keeps this
for all parts of the document at once: an edit moves a cell from the grid into the history, a step
through the history moves one back, and a read remembers values all over the grid.

## Main definitions

* `Cell.WellFormed`, `Grid.WellFormed`, `Change.WellFormed`: what can be stored.
* `Document.WellFormed`: a document that stores nothing else.

## Main results

* `Document.Step.wellFormed`: every step keeps a document well-formed.
* `Document.wellFormed_run`: every document that comes about is well-formed.
-/

namespace FormulaSheet

variable {size : Size} {n n' : Nat}

/-! ### Cells -/

/-- A cell that can be stored, with nothing remembered for it later than at version `n`. -/
structure Cell.WellFormed (n : Nat) (k : Cell) : Prop where
  ne_empty : k ≠ .empty
  /-- A formula is read from its own text. -/
  parse_text : ∀ f, k = .formula f → Expr.parse f.expr.text = .ok f.expr
  stamped : k.StampedUpTo n

namespace Cell

theorem WellFormed.mono {k : Cell} (h : k.WellFormed n) (hn : n ≤ n') : k.WellFormed n' :=
  ⟨h.ne_empty, h.parse_text, fun f m hf hm => Nat.le_trans (h.stamped f m hf hm) hn⟩

/-- A cell is well-formed if its contents are those of a well-formed cell and nothing is remembered
later than it may be. -/
theorem WellFormed.of_forget_eq {k k' : Cell} (h : k.WellFormed n) (e : k'.forget = k.forget)
    (hk : k'.StampedUpTo n') : k'.WellFormed n' where
  ne_empty := by
    intro hempty
    refine h.ne_empty ((isEmpty_iff k).1 ?_)
    rw [← isEmpty_forget, ← e, hempty]
    rfl
  parse_text := by
    rintro f rfl
    obtain ⟨-, m, rfl⟩ := (forget_eq_formula_iff k _).1 e.symm
    exact h.parse_text ⟨f.expr, m⟩ rfl
  stamped := hk

theorem WellFormed.forget {k : Cell} (h : k.WellFormed n) : k.forget.WellFormed n' :=
  h.of_forget_eq k.forget_forget (stampedUpTo_of_forget_eq k.forget_forget)

/-- A cell that an input makes can be stored unless it is empty. -/
theorem wellFormed_of_ofInput {input : String} {k : Cell} (hk : ofInput input = .ok k)
    (hempty : k.isEmpty = false) : k.WellFormed n where
  ne_empty := by
    rintro rfl
    cases hempty
  parse_text := by
    rintro f rfl
    obtain ⟨s, e, hs, he⟩ | hplain := ofExpr_or_forall_ne_of_ofInput hk
    · obtain ⟨δ, -, rfl⟩ := (Grammar.parse_eq_ok_iff s e).1 hs
      cases he
      exact Grammar.parse_text_toExpr δ
    · exact absurd rfl (hplain f)
  stamped := stampedUpTo_of_forget_eq (forget_of_ofInput hk)

end Cell

/-! ### Grids -/

/-- Every stored cell lies inside a sheet of the given size and can be stored. -/
def Grid.WellFormed (size : Size) (n : Nat) (g : Grid) : Prop :=
  ∀ (c : CellRef) (k : Cell), g[c]? = some k → size.contains c = true ∧ k.WellFormed n

namespace Grid.WellFormed

variable {g g' : Grid} {c : CellRef}

theorem mono (h : g.WellFormed size n) (hn : n ≤ n') : g.WellFormed size n' :=
  fun c k hk => ⟨(h c k hk).1, (h c k hk).2.mono hn⟩

theorem put (h : g.WellFormed size n) (hc : size.contains c = true) {k : Cell}
    (hk : k.isEmpty = false → k.WellFormed n) : (g.put c k).WellFormed size n := by
  intro a k' hk'
  obtain ⟨rfl, rfl, hempty⟩ | ⟨-, hk'⟩ := of_getElem?_put hk'
  · exact ⟨hc, hk hempty⟩
  · exact h a k' hk'

theorem erase (h : g.WellFormed size n) (c : CellRef) :
    Grid.WellFormed size n (g.erase c) :=
  fun a k hk => h a k (of_getElem?_erase hk).2

theorem restore (h : g.WellFormed size n) (hc : size.contains c = true) {state : Option Cell}
    (hstate : ∀ k ∈ state, k.WellFormed n) : (g.restore c state).WellFormed size n := by
  cases state with
  | none => exact h.erase c
  | some k => exact h.put hc fun _ => (hstate k rfl).forget

theorem of_contents_eq (h : g.WellFormed size n) (e : g'.contents = g.contents)
    (hg : g'.StampedUpTo n) : g'.WellFormed size n := by
  intro c k hk
  have hmap := contents_eq_iff.1 e c
  rw [hk, Option.map_some] at hmap
  obtain ⟨k', hk', hforget⟩ := Option.map_eq_some_iff.1 hmap.symm
  obtain ⟨hc, hwell⟩ := h c k' hk'
  exact ⟨hc, hwell.of_forget_eq hforget.symm (hg c k hk)⟩

end Grid.WellFormed

/-! ### Records -/

/-- A record of a cell inside a sheet of the given size, both of whose sides can be stored. -/
structure Change.WellFormed (size : Size) (n : Nat) (ch : Change) : Prop where
  contains : size.contains ch.cell = true
  old : ∀ k ∈ ch.old, k.WellFormed n
  new : ∀ k ∈ ch.new, k.WellFormed n

theorem Change.WellFormed.mono {ch : Change} (h : ch.WellFormed size n) (hn : n ≤ n') :
    ch.WellFormed size n' :=
  ⟨h.contains, fun k hk => (h.old k hk).mono hn, fun k hk => (h.new k hk).mono hn⟩

/-! ### Documents -/

namespace Document

open Grid

/-- A document that stores only what can be stored, in its grid and in its history, with nothing
remembered later than at version `n`, and whose history is not longer than its past may be. -/
structure WellFormed (n : Nat) (d : Document) : Prop where
  grid : d.sheet.grid.WellFormed d.sheet.size n
  past : ∀ ch ∈ d.past, ch.WellFormed d.sheet.size n
  future : ∀ ch ∈ d.future, ch.WellFormed d.sheet.size n
  length_le : d.past.length + d.future.length ≤ pastLimit

theorem WellFormed.mono {d : Document} (h : d.WellFormed n) (hn : n ≤ n') : d.WellFormed n' :=
  ⟨h.grid.mono hn, fun ch hch => (h.past ch hch).mono hn, fun ch hch => (h.future ch hch).mono hn,
    h.length_le⟩

theorem wellFormed_blank (size : Size) : (blank size).WellFormed n where
  grid c k hk := by
    have hnone : (∅ : Grid)[c]? = some k := hk
    simp at hnone
  past _ hch := absurd hch List.not_mem_nil
  future _ hch := absurd hch List.not_mem_nil
  length_le := Nat.zero_le _

/-- An edit of one cell moves what it held into the history. -/
theorem WellFormed.edit {d : Document} (h : d.WellFormed n) {c : CellRef} {new : Option Cell}
    {g : Grid} (hc : d.sheet.size.contains c = true) (hg : g.WellFormed d.sheet.size n)
    (hnew : ∀ k ∈ new, k.WellFormed n) : ((d.record c new).withGrid g).WellFormed n where
  grid := hg
  past ch hch := by
    have hrecord : Change.WellFormed d.sheet.size n ⟨c, d.sheet.grid[c]?, new⟩ :=
      ⟨hc, fun k hk => (h.grid c k hk).2, hnew⟩
    rcases List.mem_cons.1 (List.mem_of_mem_take hch) with rfl | hch
    · exact hrecord
    · exact h.past ch hch
  future _ hch := absurd hch List.not_mem_nil
  length_le := by
    simp only [record, withGrid, List.length_take, List.length_nil]
    omega

/-- Every step keeps a document well-formed: what it remembers it remembers at the version that the
document had. -/
theorem Step.wellFormed {d d' : Document} {op : Operation} (h : Step d op d')
    (hd : d.WellFormed d.sheet.version) : d'.WellFormed d.sheet.version := by
  cases h with
  | outOfBounds | invalid | absent | nothingToUndo | nothingToRedo => exact hd
  | @set c _ k hc hk =>
    have hcell : k.isEmpty = false → k.WellFormed d.sheet.version := Cell.wellFormed_of_ofInput hk
    refine hd.edit hc (hd.grid.put hc hcell) fun k' hk' => ?_
    split_ifs at hk' with hempty
    · cases hk'
    · cases hk'
      exact hcell (by simpa using hempty)
  | @cleared c hc =>
    obtain ⟨k, hk⟩ := Option.isSome_iff_exists.1 (Std.ExtTreeMap.mem_iff_isSome_getElem?.1 hc)
    exact hd.edit (hd.grid c k hk).1 (hd.grid.erase c) nofun
  | @undone ch past hpast =>
    have hlength := hd.length_le
    obtain ⟨hch, hrest⟩ := List.forall_mem_cons.1 (hpast ▸ hd.past)
    refine ⟨hd.grid.restore hch.contains hch.old, hrest, List.forall_mem_cons.2 ⟨?_, hd.future⟩, ?_⟩
    · exact ⟨hch.contains, hch.old, fun k hk => (hd.grid ch.cell k hk).2⟩
    · simp only [hpast, List.length_cons] at hlength ⊢
      omega
  | @redone ch future hfuture =>
    have hlength := hd.length_le
    obtain ⟨hch, hrest⟩ := List.forall_mem_cons.1 (hfuture ▸ hd.future)
    refine ⟨hd.grid.restore hch.contains hch.new, List.forall_mem_cons.2 ⟨?_, hd.past⟩, hrest, ?_⟩
    · exact ⟨hch.contains, fun k hk => (hd.grid ch.cell k hk).2, hch.new⟩
    · simp only [hfuture, List.length_cons] at hlength ⊢
      omega
  | cycleEnded => exact ⟨hd.grid, hd.past, hd.future, hd.length_le⟩
  | @read _ g hread =>
    have hstamped : g.StampedUpTo d.sheet.version :=
      hread.stampedUpTo fun c k hk => (hd.grid c k hk).2.stamped
    exact ⟨hd.grid.of_contents_eq hread.contents_eq hstamped, hd.past, hd.future, hd.length_le⟩

theorem Step.version_le {d d' : Document} {op : Operation} (h : Step d op d') :
    d.sheet.version ≤ d'.sheet.version := by
  cases h with
  | cycleEnded => exact Nat.le_succ _
  | _ => exact Nat.le_refl _

/-- **Documents are well-formed.** Whatever was done to a blank document, the document lies inside
the size it was made with, it stores no empty cell and no formula that is not read from its own
text, and its history is within the limit; what is remembered anywhere was remembered at a version
up to the present one, and right after a new version at an earlier one. -/
theorem wellFormed_run (size : Size) (ops : List Operation) :
    (run size ops).sheet.size = size ∧
      (run size ops).WellFormed (run size ops).sheet.version ∧
      ∃ n < (run size (ops ++ [.endCycle])).sheet.version,
        (run size (ops ++ [.endCycle])).WellFormed n := by
  have hrun : (run size ops).WellFormed (run size ops).sheet.version :=
    run_induction (P := fun d => d.WellFormed d.sheet.version) (wellFormed_blank size)
      (fun hstep hd => (hstep.wellFormed hd).mono hstep.version_le) ops
  refine ⟨size_run size ops, hrun, (run size ops).sheet.version, ?_, ?_⟩
  · rw [run_append_singleton]
    exact Nat.lt_succ_self _
  · rw [run_append_singleton]
    exact (step_after _ .endCycle).wellFormed hrun

end Document

end FormulaSheet
