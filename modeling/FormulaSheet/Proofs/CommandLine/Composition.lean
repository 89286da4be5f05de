import FormulaSheet.Options
import FormulaSheet.Proofs.CellRef.WrittenForm
import Mathlib.Data.List.Forall2

/-!
# Options in a row

The words of the command line are read one option after the other, and an option takes its value
with it. So lists of words can be put together: what they ask for together is what the first asks
for with what the second asks for added to it. Flags are set by either, the last of the values that
an option takes counts, and cells are set in order. The options that are written in their usual
forms are read as they are, whatever their values look like.

## Main definitions

* `CliOption.Spelled`: the usual forms of an option.
* `Options.ofList`: what some options ask for, field by field.
* `Options.append`: what two lists of words ask for together.

## Main results

* `CliOption.readAll_append`: words after words that can be read are read by themselves.
* `CliOption.readAll_flatten`: spelled options are read as they are.
* `Options.ofWords_composes`: both in terms of what is asked for.
-/

namespace FormulaSheet

/-! ### Texts around a mark -/

/-- Characters are split at the first mark. -/
theorem splitFirst?_append {mark : Char} {before : List Char} (h : mark ∉ before)
    (after : List Char) :
    splitFirst? mark (before ++ mark :: after) = some (before, after) := by
  have hne : ∀ c ∈ before, decide (c ≠ mark) = true := by
    intro c hc
    exact decide_eq_true (ne_of_mem_of_not_mem hc h)
  rw [splitFirst?, List.dropWhile_append_of_pos hne, List.takeWhile_append_of_pos hne,
    List.dropWhile_cons_of_neg (by simp), List.takeWhile_cons_of_neg (by simp), List.append_nil]

theorem CellRef.equals_notMem_text (c : CellRef) : '=' ∉ c.text.toList := by
  rw [text_eq_cellName, toList_cellName]
  have hcol : '=' ∉ (Numeral.ofNat c.col.toNat).chars := Numeral.notMem_chars rfl _
  have hrow : '=' ∉ (Numeral.ofNat c.row.toNat).chars := Numeral.notMem_chars rfl _
  simp [hcol, hrow]

theorem Numeral.coordinate?_ofNat (n : UInt64) :
    CellRef.coordinate? (ofNat n.toNat).chars = some n := by
  rw [coordinate?_chars, index?_eq_some_iff, value_ofNat]

/-- A positive number of columns or rows is read from its digits. -/
theorem extent?_ofNat {n : UInt64} (hn : 0 < n) :
    extent? (Numeral.ofNat n.toNat).chars = some n := by
  rw [extent?, Numeral.coordinate?_ofNat]
  · exact if_neg (UInt64.ne_of_lt hn).symm
  · intro r hsign
    exact Numeral.notMem_chars rfl _ (hsign ▸ List.mem_cons_self)

/-- A size with at least one column and one row is read from its written form. -/
theorem Size.ofText?_text {s : Size} (hcols : 0 < s.cols) (hrows : 0 < s.rows) :
    ofText? s.text = some s := by
  have htext : s.text.toList =
      (Numeral.ofNat s.cols.toNat).chars ++ 'x' :: (Numeral.ofNat s.rows.toNat).chars := by
    rw [text, ← Numeral.text_ofNat, ← Numeral.text_ofNat]
    simp
  rw [ofText?, htext, splitFirst?_append (Numeral.notMem_chars rfl _)]
  simp [extent?_ofNat hcols, extent?_ofNat hrows]

namespace CliOption

/-- The word that sets a cell is split at its first equals sign, which is not part of the cell. -/
theorem ofAssignment_text (c : CellRef) (input : String) :
    ofAssignment (c.text ++ "=" ++ input) = .ok (set c input) := by
  have hsplit : splitFirst? '=' (c.text ++ "=" ++ input).toList =
      some (c.text.toList, input.toList) := by
    have happend : (c.text ++ "=" ++ input).toList = c.text.toList ++ '=' :: input.toList := by
      simp
    rw [happend, splitFirst?_append c.equals_notMem_text]
  rw [ofAssignment, hsplit]
  simp only [String.ofList_toList, CellRef.ofText?_text]

theorem ofSize_text {s : Size} (hcols : 0 < s.cols) (hrows : 0 < s.rows) :
    ofSize s.text = .ok (size s) := by
  rw [ofSize, Size.ofText?_text hcols hrows]

/-! ### Reading one option -/

/-- The usual forms of an option: flags and options with a value, where there is one in its long and
in its short form, and a value as it is written. A sheet has at least one column and one row. -/
inductive Spelled : CliOption → List String → Prop where
  | help {word} (h : word ∈ ["-h", "--help"]) : Spelled help [word]
  | listFunctions {word} (h : word ∈ ["-l", "--list-functions"]) : Spelled listFunctions [word]
  | noConfig : Spelled noConfig ["--no-config"]
  | command {word} (h : word ∈ ["-c", "--command"]) (formula) :
      Spelled (command formula) [word, formula]
  | set {word} (h : word ∈ ["-s", "--set"]) (c : CellRef) (input) :
      Spelled (set c input) [word, c.text ++ "=" ++ input]
  | size {s : Size} (hcols : 0 < s.cols) (hrows : 0 < s.rows) : Spelled (size s) ["--size", s.text]
  | config (path) : Spelled (config path) ["--config", path]

/-- The words of an option are one of its forms. -/
theorem spelled_words {o : CliOption} (h : ∀ s, o = size s → 0 < s.cols ∧ 0 < s.rows) :
    Spelled o o.words := by
  cases o with
  | help => exact .help (by decide)
  | listFunctions => exact .listFunctions (by decide)
  | noConfig => exact .noConfig
  | command formula => exact .command (by decide) formula
  | set c input => exact .set (by decide) c input
  | size s => exact .size (h s rfl).1 (h s rfl).2
  | config path => exact .config path

theorem readAll_flag {word : String} {o : CliOption} (h : flag? word = some o)
    (rest : List String) : readAll (word :: rest) = (readAll rest).map (o :: ·) := by
  rw [readAll, h]
  cases readAll rest <;> rfl

theorem readAll_taking {word v : String} {missing : ArgumentError}
    {read : String → Except ArgumentError CliOption} {o : CliOption} (hflag : flag? word = none)
    (htaking : taking? word = some (missing, read)) (hread : read v = .ok o)
    (rest : List String) : readAll (word :: v :: rest) = (readAll rest).map (o :: ·) := by
  rw [readAll, hflag]
  simp only [htaking, hread]
  cases readAll rest <;> rfl

/-- A spelled option is read first, whatever comes after it. -/
theorem Spelled.readAll_append {o : CliOption} {words : List String} (h : Spelled o words)
    (rest : List String) : readAll (words ++ rest) = (readAll rest).map (o :: ·) := by
  cases h with
  | help h => rcases List.mem_pair.1 h with rfl | rfl <;> exact readAll_flag rfl rest
  | listFunctions h => rcases List.mem_pair.1 h with rfl | rfl <;> exact readAll_flag rfl rest
  | noConfig => exact readAll_flag rfl rest
  | command h => rcases List.mem_pair.1 h with rfl | rfl <;> exact readAll_taking rfl rfl rfl rest
  | set h c input =>
    rcases List.mem_pair.1 h with rfl | rfl <;>
      exact readAll_taking rfl rfl (ofAssignment_text c input) rest
  | size hcols hrows => exact readAll_taking rfl rfl (ofSize_text hcols hrows) rest
  | config => exact readAll_taking rfl rfl rfl rest

/-- Spelled options are read as they are. -/
theorem readAll_flatten {os : List CliOption} {words : List (List String)}
    (h : List.Forall₂ Spelled os words) : readAll words.flatten = .ok os := by
  induction h with
  | nil => rfl
  | cons ho _ ih =>
    rw [List.flatten_cons, ho.readAll_append, ih]
    rfl

/-- Words that are put after words that can be read are read by themselves: an option that takes a
value has taken it before. -/
theorem readAll_append {a : List String} {os : List CliOption} (h : readAll a = .ok os)
    (b : List String) : readAll (a ++ b) = (readAll b).map (os ++ ·) := by
  fun_induction readAll a generalizing os with
  | case1 =>
    cases h
    rw [List.nil_append]
    cases readAll b <;> rfl
  | case2 word rest o hflag ih =>
    obtain ⟨os, hrest, hos⟩ := Grammar.exists_of_bind_eq_ok h
    cases hos
    rw [List.cons_append, readAll_flag hflag, ih hrest]
    cases readAll b <;> rfl
  | case3 | case4 => cases h
  | case5 word hflag missing read htaking v rest ih =>
    obtain ⟨o, hread, h⟩ := Grammar.exists_of_bind_eq_ok h
    obtain ⟨os, hrest, hos⟩ := Grammar.exists_of_bind_eq_ok h
    cases hos
    rw [List.cons_append, List.cons_append, readAll_taking hflag htaking hread, ih hrest]
    cases readAll b <;> rfl

/-! ### What an option gives -/

/-- The formula that an option gives. -/
def formula? : CliOption → Option String
  | command formula => some formula
  | _ => none

/-- The cell and the input that an option gives. -/
def assignment? : CliOption → Option (CellRef × String)
  | set cell input => some (cell, input)
  | _ => none

/-- The size that an option gives. -/
def size? : CliOption → Option Size
  | size s => some s
  | _ => none

/-- The path that an option gives. -/
def path? : CliOption → Option String
  | config path => some path
  | _ => none

end CliOption

namespace Options

/-! ### What options ask for together -/

/-- What some options ask for: a flag is set if it is among them, the last of the formulas, sizes
and paths counts, and all cells are set in order. -/
def ofList (os : List CliOption) : Options where
  help := .help ∈ os
  listFunctions := .listFunctions ∈ os
  noConfig := .noConfig ∈ os
  command := (os.filterMap CliOption.formula?).getLast?
  cells := os.filterMap CliOption.assignment?
  size := (os.filterMap CliOption.size?).getLast?
  config := (os.filterMap CliOption.path?).getLast?

/-- What `a` asks for and then `b`: either sets a flag, `b` comes first where both give a formula, a
size or a path, and the cells of `b` are set after those of `a`. -/
def append (a b : Options) : Options where
  help := a.help || b.help
  listFunctions := a.listFunctions || b.listFunctions
  noConfig := a.noConfig || b.noConfig
  command := b.command.or a.command
  cells := a.cells ++ b.cells
  size := b.size.or a.size
  config := b.config.or a.config

theorem ofList_append (os os' : List CliOption) :
    ofList (os ++ os') = (ofList os).append (ofList os') := by
  simp [ofList, append, List.getLast?_append]

/-- One option more is put after the others. -/
theorem add_eq_append (o : Options) (x : CliOption) : o.add x = o.append (ofList [x]) := by
  cases x <;> simp [add, append, ofList, CliOption.formula?, CliOption.assignment?,
    CliOption.size?, CliOption.path?]

/-- Adding options one after the other gives what they ask for. -/
theorem foldl_add_empty (os : List CliOption) : os.foldl add empty = ofList os := by
  induction os using List.reverseRecOn with
  | nil => rfl
  | append_singleton os x ih =>
    rw [List.foldl_append, List.foldl_cons, List.foldl_nil, ih, add_eq_append, ← ofList_append]

theorem ofWords_eq (words : List String) :
    ofWords words = (CliOption.readAll words).map ofList := by
  rw [ofWords]
  exact congrArg (Except.map · _) (funext foldl_add_empty)

/-- **Options in a row.** Options that are written in their usual forms, in any order and with
repetitions, ask for what they are: their flags, the last formula, size and path, and all cells in
order. Words that are put after words that can be read ask for the same as by themselves, which is
added to what the first words ask for, or fail as by themselves. It is added as options are. -/
theorem ofWords_composes :
    (∀ os words, List.Forall₂ CliOption.Spelled os words →
      ofWords words.flatten = .ok (ofList os)) ∧
      (∀ a b o, ofWords a = .ok o → ofWords (a ++ b) = (ofWords b).map o.append) ∧
      ∀ os os', ofList (os ++ os') = (ofList os).append (ofList os') := by
  refine ⟨fun os words h => ?_, fun a b o ha => ?_, ofList_append⟩
  · rw [ofWords_eq, CliOption.readAll_flatten h]
    rfl
  · rw [ofWords_eq] at ha
    cases hread : CliOption.readAll a with
    | error e => simp [hread, Except.map] at ha
    | ok os =>
      rw [hread] at ha
      cases ha
      rw [ofWords_eq, ofWords_eq, CliOption.readAll_append hread]
      cases CliOption.readAll b with
      | error e => rfl
      | ok os' => exact congrArg Except.ok (ofList_append os os')

/-- Options whose values look like options, or hold further equals signs. -/
private def lookalikes : List CliOption :=
  [.command "--help", .set ⟨0, 1⟩ "=:0:0*2", .size ⟨3, 4⟩, .command "-c"]

/-- They are read as they are, and a word that is put after them is not taken for their value. -/
theorem ofWords_composes_lookalikes :
    List.Forall₂ CliOption.Spelled lookalikes (lookalikes.map CliOption.words) ∧
      ofWords (lookalikes.map CliOption.words).flatten =
        .ok { empty with
          command := some "-c", cells := [(⟨0, 1⟩, "=:0:0*2")], size := some ⟨3, 4⟩ } ∧
      ofWords ((lookalikes.map CliOption.words).flatten ++ ["--help"]) =
        .ok { ofList lookalikes with help := true } := by
  have hspelled : List.Forall₂ CliOption.Spelled lookalikes (lookalikes.map CliOption.words) :=
    .cons (CliOption.spelled_words nofun) <| .cons (CliOption.spelled_words nofun) <|
      .cons (.size (by decide) (by decide)) <| .cons (CliOption.spelled_words nofun) .nil
  have hread := ofWords_composes.1 _ _ hspelled
  exact ⟨hspelled, hread, ofWords_composes.2.1 _ ["--help"] _ hread⟩

end Options

end FormulaSheet
