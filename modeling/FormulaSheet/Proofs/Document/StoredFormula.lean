import FormulaSheet.Proofs.Document.CyclicReads
import FormulaSheet.Proofs.Grammar.Canonical
import FormulaSheet.Proofs.Token.Blanks

/-!
# Stored formulas

A formula can be stored in a cell or run without being stored. An equals sign in front of it and
blank characters around it do not matter for either, so the same texts are refused. When the formula
is stored, the value of its cell, the value of the formula run by itself and the value of the text
shown for editing are the same, also where the formula leads back to its own cell.

## Main results

* `Document.parse_formulaText`, `Document.parse_formulaText_equals`: the formula in a text.
* `Sheet.IsStale.value_eq_valueOf`: the value of a formula cell is that of its formula.
* `Document.stored_formula_agrees`: storing a formula and running it give the same.
-/

namespace FormulaSheet

open Evaluation Grid

/-! ### Equals signs and blanks -/

namespace Text

theorem trimChars_equals (t : String) :
    trimChars ("=" ++ t).toList = '=' :: t.toList.rdropWhile isBlank := by
  rw [String.toList_append]
  exact trimChars_cons (by decide) t.toList

end Text

/-- Blank characters at the end of a formula do not count. -/
theorem Expr.parse_rdropWhile (t : String) :
    parse (String.ofList (t.toList.rdropWhile Text.isBlank)) = parse t := by
  rw [parse, parse, Token.ofText, String.toList_ofList, Token.scan_rdropWhile_isBlank, Token.ofText]

/-- An input with an equals sign in front makes the cell of the formula after it. -/
theorem Cell.ofInput_equals (t : String) :
    ofInput ("=" ++ t) = (Expr.parse t).map ofExpr := by
  rw [ofInput, Text.trimChars_equals]
  exact congrArg (Except.map ofExpr) (Expr.parse_rdropWhile t)

namespace Document

/-- Without an equals sign in front the formula in a text is the text itself. -/
theorem parse_formulaText {t : String} (ht : (Text.trim t).toList.head? ≠ some '=') :
    Expr.parse (formulaText t) = Expr.parse t := by
  have htrim : formulaText t = Text.trim t := by
    rw [Text.trim, String.toList_ofList] at ht
    rw [formulaText_of_head?_ne ht, Text.trim]
  rw [htrim, Expr.parse, Token.ofText_trim, Expr.parse]

/-- One equals sign in front of a formula does not count. -/
theorem parse_formulaText_equals (t : String) :
    Expr.parse (formulaText ("=" ++ t)) = Expr.parse t := by
  rw [formulaText_of_equals (Text.trimChars_equals t), Expr.parse_rdropWhile]

end Document

/-! ### The value of a stored formula -/

/-- The value of a formula cell that is read first is that of its formula when it is run: the trail
that holds the cell cuts off no more than the empty trail does. -/
theorem Sheet.IsStale.value_eq_valueOf {s : Sheet} (hs : s.IsStale) {c : CellRef} {f : Formula}
    (hc : s.size.contains c = true) (hf : s.grid[c]? = some (.formula f)) :
    (s.value c).1 = (s.valueOf f.expr).1 := by
  have hsource : source s.size s.grid c = .stale f.expr :=
    source_eq_stale_iff.2 ⟨hc, f, hf, rfl⟩
  rw [hs.value_eq, hs.valueOf_eq, meaning_of_stale hsource]

namespace Document

/-- A formula is stored in a cell of the sheet when it can be read, and then the cell holds it. -/
theorem run_setInput_equals {d : Document} {c : CellRef} (hc : d.sheet.size.contains c = true)
    (t : String) :
    (setInput c ("=" ++ t)).run.run d =
      match Expr.parse t with
      | .error e => (.error (.invalidFormula e), d)
      | .ok e =>
        (.ok (), (d.record c (some (.ofExpr e))).withGrid (d.sheet.grid.put c (.ofExpr e))) := by
  rw [run_setInput, if_pos hc, Cell.ofInput_equals]
  cases Expr.parse t <;> rfl

/-- The cell of a formula that was stored holds it after a new version. -/
theorem getElem?_run_setInput (size : Size) (ops : List Operation) {c : CellRef}
    (hc : size.contains c = true) {t : String} {e : Expr} (ht : Expr.parse t = .ok e) :
    (run size (ops ++ [.setInput c ("=" ++ t), .endCycle])).sheet.grid[c]? =
      some (.ofExpr e) := by
  have hsize : (run size ops).sheet.size.contains c = true := (size_run size ops).symm ▸ hc
  have hgrid : (run size (ops ++ [.setInput c ("=" ++ t), .endCycle])).sheet.grid =
      ((setInput c ("=" ++ t)).run.run (run size ops)).2.sheet.grid := by
    rw [← List.singleton_append, ← List.append_assoc, run_append_singleton, run_append_singleton]
    rfl
  rw [hgrid, run_setInput_equals hsize, ht]
  exact (getElem?_put _ _ _ _).trans (if_pos rfl)

theorem evaluate_of_parse (d : Document) {text : String} {e : Expr}
    (h : Expr.parse (formulaText text) = .ok e) :
    ((evaluate text).run.run d).1 = .ok (d.sheet.valueOf e).1 := by
  rw [run_evaluate, h]

/-- **A stored formula has the value it has when it is run.** After any run, a formula is stored in
a cell of the sheet unless it cannot be read when it is run, and then for the same reason. Once it is
stored, after a new version, the value of the cell is that of the formula, with or without an equals
sign in front, and that of the text shown for the cell when it is edited. -/
theorem stored_formula_agrees (size : Size) (ops : List Operation) {c : CellRef} {t : String}
    (hc : size.contains c = true) (ht : (Text.trim t).toList.head? ≠ some '=') :
    let d := run size ops
    let stored := ((setInput c ("=" ++ t)).run.run d).1
    let computed := ((evaluate t).run.run d).1
    let d' := run size (ops ++ [.setInput c ("=" ++ t), .endCycle])
    (stored = .ok () ↔ ∀ e, computed ≠ .error (.invalidFormula e)) ∧
      (∀ e, stored = .error e ↔ computed = .error e) ∧
      (stored = .ok () → ∃ k v, d'.sheet.grid[c]? = some k ∧ ((value c).run d').1 = v ∧
        ∀ text ∈ [t, "=" ++ t, k.inputText], ((evaluate text).run.run d').1 = .ok v) := by
  intro d stored computed d'
  have hsize : d.sheet.size.contains c = true := (size_run size ops).symm ▸ hc
  cases hparse : Expr.parse t with
  | error e =>
    have hstored : stored = .error (.invalidFormula e) := by
      simp only [stored, run_setInput_equals hsize, hparse]
    have hcomputed : computed = .error (.invalidFormula e) := by
      simp only [computed, run_evaluate, parse_formulaText ht, hparse]
    rw [hstored, hcomputed]
    exact ⟨⟨nofun, fun h => absurd rfl (h e)⟩, fun _ => by simp only [Except.error.injEq], nofun⟩
  | ok e =>
    have hstored : stored = .ok () := by
      simp only [stored, run_setInput_equals hsize, hparse]
    have hcomputed : computed = .ok (d.sheet.valueOf e).1 :=
      evaluate_of_parse d ((parse_formulaText ht).trans hparse)
    rw [hstored, hcomputed]
    refine ⟨⟨fun _ _ => nofun, fun _ => rfl⟩, fun _ => ⟨nofun, nofun⟩, fun _ => ?_⟩
    have hstale : d'.sheet.IsStale := by
      have h := isStale_of_endCycle size (ops ++ [.setInput c ("=" ++ t)])
      rwa [List.append_assoc] at h
    have hcell : d'.sheet.grid[c]? = some (.ofExpr e) := getElem?_run_setInput size ops hc hparse
    have hcontains : d'.sheet.size.contains c = true := (size_run size _).symm ▸ hc
    have hcanonical : Expr.parse e.text = .ok e := by
      obtain ⟨δ, -, rfl⟩ := (Grammar.parse_eq_ok_iff t e).1 hparse
      exact Grammar.parse_text_toExpr δ
    refine ⟨.ofExpr e, (d'.sheet.valueOf e).1, hcell, hstale.value_eq_valueOf hcontains hcell, ?_⟩
    intro text htext
    refine evaluate_of_parse d' ?_
    rcases List.mem_cons.1 htext with rfl | htext
    · exact (parse_formulaText ht).trans hparse
    · rcases List.mem_pair.1 htext with rfl | rfl
      · exact (parse_formulaText_equals t).trans hparse
      · exact (parse_formulaText_equals e.text).trans hcanonical

/-- A cell that refers back to the cell of the stored formula, with an error of its own in front of
the reference. -/
private def referringBack : List Operation :=
  [.setInput ⟨1, 0⟩ "=nofunc()+:0:0"]

/-- The document in which that formula is stored. -/
private def closedCycle : Document :=
  run ⟨4, 4⟩ (referringBack ++ [.setInput ⟨0, 0⟩ ("=" ++ " :1:0 * 2 "), .endCycle])

private theorem values_closedCycle :
    ((display ⟨0, 0⟩).run closedCycle).1 = "!#NAME" ∧
      ((value ⟨0, 0⟩).run closedCycle).1 = .error .name :=
  ⟨by decide +kernel, by decide +kernel⟩

/-- A formula that leads back to its own cell is stored and has the value it has when it is run, the
error of the unknown function. -/
theorem stored_formula_agrees_onCycle :
    Size.contains ⟨4, 4⟩ ⟨0, 0⟩ = true ∧ (Text.trim " :1:0 * 2 ").toList.head? ≠ some '=' ∧
      ((setInput ⟨0, 0⟩ ("=" ++ " :1:0 * 2 ")).run.run (run ⟨4, 4⟩ referringBack)).1 = .ok () ∧
      ((display ⟨0, 0⟩).run closedCycle).1 = "!#NAME" ∧
      ∃ k, closedCycle.sheet.grid[(⟨0, 0⟩ : CellRef)]? = some k ∧
        ((value ⟨0, 0⟩).run closedCycle).1 = .error .name ∧
        ∀ text ∈ [" :1:0 * 2 ", "=" ++ " :1:0 * 2 ", k.inputText],
          ((evaluate text).run.run closedCycle).1 = .ok (.error .name) := by
  have hc : Size.contains ⟨4, 4⟩ ⟨0, 0⟩ = true := by decide
  have ht : (Text.trim " :1:0 * 2 ").toList.head? ≠ some '=' := by decide +kernel
  obtain ⟨hiff, -, hvalues⟩ := stored_formula_agrees ⟨4, 4⟩ referringBack hc ht
  have hcomputed : ((evaluate " :1:0 * 2 ").run.run (run ⟨4, 4⟩ referringBack)).1 =
      .ok (.error .name) := by
    decide +kernel
  have hstored := hiff.2 fun e he => by cases hcomputed.symm.trans he
  obtain ⟨hshown, hname⟩ := values_closedCycle
  obtain ⟨k, v, hk, hv, hsame⟩ := hvalues hstored
  obtain rfl : v = .error .name := hv.symm.trans hname
  exact ⟨hc, ht, hstored, hshown, k, hk, hname, hsame⟩

end Document

end FormulaSheet
