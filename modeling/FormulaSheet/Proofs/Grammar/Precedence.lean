import FormulaSheet.Proofs.Grammar.Assembly

/-!
# Precedence

The text of an expression that was put together by hand is always a formula. It is read as the
grammar groups it, so it is read as the same expression exactly when the expression was put together
as the grammar would: with parentheses around every operand that would otherwise be grouped in
another way.

## Main definitions

* `Derivation.assembly`: how the grammar puts the expression of a derivation together.
* `Grammar.Fits`: what can stand at the place of a symbol.
* `Grammar.IsDerived`: the derivations of an assembly, from each symbol where it can stand.

## Main results

* `Grammar.exists_derivation_iff`: the grammar puts together exactly what respects precedence.
* `Grammar.exists_derivation_text`: the text of every assembly is derived.
* `Grammar.parse_text_iff_respectsPrecedence`: the text of an assembly is read as its expression
  exactly when it respects precedence.
-/

namespace FormulaSheet.Grammar

open Token Grammar.Derivation

/-! ### Coordinates of kept indices -/

/-- The index of a coordinate is kept: it is rounded to the number it stands for. -/
theorem Coordinate.isKept_index (c : Coordinate) : IsKept c.index.toNat := by
  have hround := Binary64.natural?_nearest_of_le (Binary64.roundNatural_le c.index.toNat_lt)
  have hnumber := Binary64.natural?_nearest_min c.number_le c.isSignificant
  rw [← c.toNat_index, hround, Option.some.injEq] at hnumber
  rw [IsKept, hnumber, c.toNat_index]

/-- The coordinate that is written as the decimal digits of an index. -/
def Coordinate.ofIndex (i : UInt64) : Coordinate where
  word := decimalWord i.toNat
  value := Binary64.nearest false i.toNat 1
  number := Binary64.roundNatural i.toNat
  read?_word := Literal.read?_repr _
  rational?_value := by
    rw [← Binary64.natural?_eq_some_iff]
    exact Binary64.natural?_nearest_of_le (Binary64.roundNatural_le i.toNat_lt)
  number_le := Binary64.roundNatural_le i.toNat_lt

/-- A kept index is named by its decimal digits. -/
theorem Coordinate.index_ofIndex {i : UInt64} (hi : IsKept i.toNat) :
    (Coordinate.ofIndex i).index = i := by
  have hmin : min (Binary64.roundNatural i.toNat) (2 ^ 64 - 1) = i.toNat := hi
  rw [Coordinate.index, Coordinate.ofIndex, hmin, UInt64.ofNat_toNat]

/-! ### How the grammar puts expressions together -/

/-- How the grammar puts the expression of a derivation together. -/
def Derivation.assembly : {σ : Symbol} → Derivation σ → Meaning Assembly σ
  | _, expr first rest => rest.assembly first.assembly
  | _, exprEnd => id
  | _, exprNext op _ next rest => fun left => rest.assembly (.binary op left next.assembly)
  | _, term first rest => rest.assembly first.assembly
  | _, termEnd => id
  | _, termNext op _ next rest => fun left => rest.assembly (.binary op left next.assembly)
  | _, number word value hword => .constant word value hword
  | _, reference col row => .cell ⟨col.index, row.index⟩ col.isKept_index row.isKept_index
  | _, call name hname args => .call name hname args.assembly
  | _, group inner => .parenthesized inner.assembly
  | _, noArguments => []
  | _, arguments first rest => first.assembly :: rest.assembly
  | _, argumentsEnd => []
  | _, argumentsNext next rest => next.assembly :: rest.assembly

/-- An assembly is one of the expression that is meant. -/
def PutsTogether : {σ : Symbol} → Meaning Assembly σ → Meaning Expr σ → Prop
  | .expr, a, e | .term, a, e | .factor, a, e => a.toExpr = e
  | .exprRest, f, g | .termRest, f, g => ∀ a : Assembly, (f a).toExpr = g a.toExpr
  | .arguments, as, es | .argumentsRest, as, es => Assembly.toExprs as = es

theorem putsTogether_assembly {σ : Symbol} (d : Derivation σ) :
    PutsTogether d.assembly d.toExpr := by
  induction d with
  | expr first rest hfirst hrest | term first rest hfirst hrest =>
    exact (hrest first.assembly).trans (congrArg rest.toExpr hfirst)
  | exprEnd | termEnd => exact fun _ => rfl
  | exprNext op _ next rest hnext hrest | termNext op _ next rest hnext hrest =>
    intro a
    exact (hrest _).trans (congrArg (fun e => rest.toExpr (.ofBinary op a.toExpr e)) hnext)
  | number | reference => rfl
  | call name _ _ hargs => exact congrArg (Expr.ofCall name.text) hargs
  | group _ hinner => exact congrArg Expr.parenthesized hinner
  | noArguments | argumentsEnd => rfl
  | arguments _ _ hfirst hrest | argumentsNext _ _ hfirst hrest =>
    exact congrArg₂ List.cons hfirst hrest

/-- What stands at the place of a symbol respects precedence, and it has no operator of its own that
the symbol does not derive. -/
def Fits : {σ : Symbol} → Meaning Assembly σ → Prop
  | .expr, a => a.respectsPrecedence = true
  | .term, a => a.respectsPrecedence = true ∧ a.operator?.all Operator.isMultiplicative = true
  | .factor, a => a.respectsPrecedence = true ∧ a.operator? = none
  | .exprRest, f => ∀ a : Assembly, a.respectsPrecedence = true → (f a).respectsPrecedence = true
  | .termRest, f => ∀ a : Assembly, a.respectsPrecedence = true →
      a.operator?.all Operator.isMultiplicative = true →
      (f a).respectsPrecedence = true ∧ (f a).operator?.all Operator.isMultiplicative = true
  | .arguments, as | .argumentsRest, as => Assembly.allRespectPrecedence as = true

theorem fits_assembly {σ : Symbol} (d : Derivation σ) : Fits d.assembly := by
  induction d with
  | expr first rest hfirst hrest => exact hrest _ hfirst.1
  | exprEnd => exact fun _ h => h
  | exprNext op hop next rest hnext hrest =>
    intro a ha
    have hop : op.isMultiplicative = false := by simpa [Operator.isAdditive] using hop
    refine hrest _ ?_
    simp [Assembly.respectsPrecedence, Operator.admits, hop, ha, hnext.1, hnext.2]
  | term first rest hfirst hrest => exact hrest _ hfirst.1 (by rw [hfirst.2]; rfl)
  | termEnd => exact fun _ h hop => ⟨h, hop⟩
  | termNext op hop next rest hnext hrest =>
    intro a ha hleft
    refine hrest _ ?_ (by simpa [Assembly.operator?] using hop)
    simp [Assembly.respectsPrecedence, Operator.admits, hop, ha, hleft, hnext.1, hnext.2]
  | number | reference => exact ⟨rfl, rfl⟩
  | call _ _ _ hargs => exact ⟨hargs, rfl⟩
  | group _ hinner => exact ⟨hinner, rfl⟩
  | noArguments | argumentsEnd => rfl
  | arguments _ _ hfirst hrest | argumentsNext _ _ hfirst hrest =>
    exact Bool.and_eq_true_iff.2 ⟨hfirst, hrest⟩

/-- The grammar puts together nothing but what respects precedence. -/
theorem respectsPrecedence_of_toExpr_eq {a : Assembly} {d : Derivation .expr}
    (h : d.toExpr = a.toExpr) : a.respectsPrecedence = true := by
  have hassembly : Assembly.toExpr d.assembly = d.toExpr := putsTogether_assembly d
  obtain rfl := Assembly.toExpr_injective _ _ (hassembly.trans h)
  exact fits_assembly d

/-! ### Everything that respects precedence is derived -/

/-- A repetition of a term can be continued by one more operator. -/
theorem exists_snoc_termRest {op : Operator} (hop : op.isMultiplicative = true)
    (last : Derivation .factor) : (d : Derivation .termRest) →
    ∃ d' : Derivation .termRest, ∀ e, d'.toExpr e = .ofBinary op (d.toExpr e) last.toExpr
  | termEnd => ⟨termNext op hop last termEnd, fun _ => rfl⟩
  | termNext op' hop' next rest => by
    obtain ⟨d, hd⟩ := exists_snoc_termRest hop last rest
    exact ⟨termNext op' hop' next d, fun e => hd _⟩

/-- A repetition of an expression can be continued by one more operator. -/
theorem exists_snoc_exprRest {op : Operator} (hop : op.isAdditive = true)
    (last : Derivation .term) : (d : Derivation .exprRest) →
    ∃ d' : Derivation .exprRest, ∀ e, d'.toExpr e = .ofBinary op (d.toExpr e) last.toExpr
  | exprEnd => ⟨exprNext op hop last exprEnd, fun _ => rfl⟩
  | exprNext op' hop' next rest => by
    obtain ⟨d, hd⟩ := exists_snoc_exprRest hop last rest
    exact ⟨exprNext op' hop' next d, fun e => hd _⟩

/-- The derivation of an expression that is one factor. -/
def Derivation.ofFactor (d : Derivation .factor) : Derivation .expr :=
  expr (term d termEnd) exprEnd

/-- The derivation of arguments from the derivations of each. -/
def Derivation.ofArguments : List (Derivation .expr) → Derivation .arguments
  | [] => noArguments
  | d :: ds => arguments d (ds.foldr argumentsNext argumentsEnd)

theorem toExpr_foldr_argumentsNext (ds : List (Derivation .expr)) :
    (ds.foldr argumentsNext argumentsEnd).toExpr = ds.map toExpr := by
  induction ds with
  | nil => rfl
  | cons d ds ih => exact congrArg (d.toExpr :: ·) ih

theorem toExpr_ofArguments (ds : List (Derivation .expr)) :
    (ofArguments ds).toExpr = ds.map toExpr := by
  cases ds with
  | nil => rfl
  | cons d ds => exact congrArg (d.toExpr :: ·) (toExpr_foldr_argumentsNext ds)

/-- A reference to kept indices is derived from their decimal digits. -/
theorem toExpr_reference_ofIndex {c : CellRef} (hcol : IsKept c.col.toNat)
    (hrow : IsKept c.row.toNat) :
    (reference (.ofIndex c.col) (.ofIndex c.row)).toExpr = Expr.ofCell c := by
  change Expr.ofCell ⟨(Coordinate.ofIndex c.col).index, (Coordinate.ofIndex c.row).index⟩ = _
  rw [Coordinate.index_ofIndex hcol, Coordinate.index_ofIndex hrow]

/-- An assembly has derivations of its expression, from each symbol that its operator allows. -/
structure IsDerived (a : Assembly) : Prop where
  expr : ∃ d : Derivation .expr, d.toExpr = a.toExpr
  term : a.operator?.all Operator.isMultiplicative = true →
    ∃ d : Derivation .term, d.toExpr = a.toExpr
  factor : a.operator? = none → ∃ d : Derivation .factor, d.toExpr = a.toExpr

theorem IsDerived.of_factor {a : Assembly} (d : Derivation .factor) (h : d.toExpr = a.toExpr) :
    IsDerived a :=
  ⟨⟨ofFactor d, h⟩, fun _ => ⟨.term d termEnd, h⟩, fun _ => ⟨d, h⟩⟩

/-- An operator is derived with its operands when it keeps them without more parentheses. -/
theorem IsDerived.binary {op : Operator} {l r : Assembly} (hl : IsDerived l) (hr : IsDerived r)
    (h : op.admits l.operator? r.operator? = true) : IsDerived (.binary op l r) := by
  rw [Operator.admits] at h
  by_cases hop : op.isMultiplicative = true
  · rw [if_pos hop, Bool.and_eq_true, Option.isNone_iff_eq_none] at h
    obtain ⟨dl, hleft⟩ := hl.term h.1
    obtain ⟨last, hright⟩ := hr.factor h.2
    cases dl with
    | term first rest =>
      obtain ⟨rest', hrest⟩ := exists_snoc_termRest hop last rest
      have hterm : (Derivation.term first rest').toExpr = (Assembly.binary op l r).toExpr := by
        rw [Assembly.toExpr, ← hleft, ← hright]
        exact hrest _
      exact ⟨⟨.expr (.term first rest') exprEnd, hterm⟩, fun _ => ⟨_, hterm⟩,
        fun hnone => by cases hnone⟩
  · rw [if_neg hop] at h
    have hadditive : op.isAdditive = true := by simpa [Operator.isAdditive] using hop
    obtain ⟨dl, hleft⟩ := hl.expr
    obtain ⟨last, hright⟩ := hr.term h
    cases dl with
    | expr first rest =>
      obtain ⟨rest', hrest⟩ := exists_snoc_exprRest hadditive last rest
      have hexpr : (Derivation.expr first rest').toExpr = (Assembly.binary op l r).toExpr := by
        rw [Assembly.toExpr, ← hleft, ← hright]
        exact hrest _
      exact ⟨⟨_, hexpr⟩, fun hmul => absurd hmul hop, fun hnone => by cases hnone⟩

mutual

/-- What respects precedence is derived. -/
theorem isDerived : (a : Assembly) → a.respectsPrecedence = true → IsDerived a
  | .constant word value hword, _ => .of_factor (number word value hword) rfl
  | .cell _ hcol hrow, _ => .of_factor _ (toExpr_reference_ofIndex hcol hrow)
  | .call name hname args, h => by
    obtain ⟨ds, hds⟩ := exists_derivations args h
    refine .of_factor (call name hname (ofArguments ds)) (congrArg (Expr.ofCall name.text) ?_)
    exact (toExpr_ofArguments ds).trans hds
  | .binary op l r, h => by
    simp only [Assembly.respectsPrecedence, Bool.and_eq_true] at h
    exact .binary (isDerived l h.1.2) (isDerived r h.2) h.1.1
  | .parenthesized inner, h => by
    obtain ⟨d, hd⟩ := (isDerived inner h).expr
    exact .of_factor (group d) (congrArg Expr.parenthesized hd)

/-- So are arguments that all do. -/
theorem exists_derivations : (as : List Assembly) → Assembly.allRespectPrecedence as = true →
    ∃ ds : List (Derivation .expr), ds.map toExpr = Assembly.toExprs as
  | [], _ => ⟨[], rfl⟩
  | a :: as, h => by
    obtain ⟨ha, has⟩ := Bool.and_eq_true_iff.1 h
    obtain ⟨d, hd⟩ := (isDerived a ha).expr
    obtain ⟨ds, hds⟩ := exists_derivations as has
    exact ⟨d :: ds, congrArg₂ List.cons hd hds⟩

end

/-- The grammar puts together exactly what respects precedence. -/
theorem exists_derivation_iff (a : Assembly) :
    (∃ d : Derivation .expr, d.toExpr = a.toExpr) ↔ a.respectsPrecedence = true :=
  ⟨fun ⟨_, h⟩ => respectsPrecedence_of_toExpr_eq h, fun h => (isDerived a h).expr⟩

/-! ### The text of every assembly is derived -/

theorem chars_prepend (d : Derivation .expr) (f : Derivation .factor) (op : Operator) :
    (d.prepend f op).chars = f.chars ++ (op.symbol.toList ++ d.chars) := by
  rcases d with ⟨⟨g, rest⟩, more⟩
  rw [Derivation.prepend]
  split <;> simp [Derivation.chars]

/-- A term can be continued by an operator and an expression, whatever the operator. -/
theorem exists_join_termRest (op : Operator) (d : Derivation .expr) :
    (rest : Derivation .termRest) → (f : Derivation .factor) → ∃ d' : Derivation .expr,
      d'.chars = f.chars ++ (rest.chars ++ (op.symbol.toList ++ d.chars))
  | termEnd, f => ⟨d.prepend f op, chars_prepend d f op⟩
  | termNext op' _ next rest, f => by
    obtain ⟨d', hd'⟩ := exists_join_termRest op d rest next
    refine ⟨d'.prepend f op', ?_⟩
    rw [chars_prepend, hd']
    simp [Derivation.chars]

/-- So can an expression. -/
theorem exists_join_exprRest (op : Operator) (d : Derivation .expr) :
    (rest : Derivation .exprRest) → (first : Derivation .term) → ∃ d' : Derivation .expr,
      d'.chars = first.chars ++ (rest.chars ++ (op.symbol.toList ++ d.chars))
  | exprEnd, .term f more => by
    obtain ⟨d', hd'⟩ := exists_join_termRest op d more f
    refine ⟨d', ?_⟩
    rw [hd']
    simp [Derivation.chars]
  | exprNext op' _ next rest, .term f more => by
    obtain ⟨d₁, hd₁⟩ := exists_join_exprRest op d rest next
    obtain ⟨d₂, hd₂⟩ := exists_join_termRest op' d₁ more f
    refine ⟨d₂, ?_⟩
    rw [hd₂, hd₁]
    simp [Derivation.chars]

/-- Two derived texts with an operator in between are derived. -/
theorem exists_join (op : Operator) (l r : Derivation .expr) : ∃ d : Derivation .expr,
    Expr.text d.toExpr = Expr.text l.toExpr ++ op.symbol ++ Expr.text r.toExpr := by
  cases l with
  | expr first rest =>
    obtain ⟨d, hd⟩ := exists_join_exprRest op r rest first
    refine ⟨d, ?_⟩
    rw [← String.toList_inj, String.toList_append, String.toList_append, toList_text_toExpr,
      toList_text_toExpr, toList_text_toExpr, hd]
    simp [Derivation.chars]

theorem joinTexts_eq_intercalate : (es : List Expr) →
    Expr.joinTexts es = ", ".intercalate (es.map Expr.text)
  | [] => rfl
  | [_] => String.intercalate_singleton.symm
  | e :: f :: es => by
    have hrest : Expr.joinTexts (e :: f :: es) = e.text ++ ", " ++ Expr.joinTexts (f :: es) := rfl
    rw [hrest, joinTexts_eq_intercalate (f :: es)]
    exact String.intercalate_cons_cons.symm

mutual

/-- The text of every assembly is derived. -/
theorem exists_derivation_text : (a : Assembly) →
    ∃ d : Derivation .expr, Expr.text d.toExpr = a.toExpr.text
  | .constant word value hword => ⟨ofFactor (number word value hword), rfl⟩
  | .cell c hcol hrow =>
    ⟨ofFactor (reference (.ofIndex c.col) (.ofIndex c.row)),
      congrArg Expr.text (toExpr_reference_ofIndex hcol hrow)⟩
  | .call name hname args => by
    obtain ⟨ds, hds⟩ := exists_derivations_texts args
    refine ⟨ofFactor (call name hname (ofArguments ds)), ?_⟩
    change name.text ++ "(" ++ Expr.joinTexts (ofArguments ds).toExpr ++ ")" = _
    rw [toExpr_ofArguments, joinTexts_eq_intercalate, hds, ← joinTexts_eq_intercalate]
    rfl
  | .binary op l r => by
    obtain ⟨dl, hl⟩ := exists_derivation_text l
    obtain ⟨dr, hr⟩ := exists_derivation_text r
    obtain ⟨d, hd⟩ := exists_join op dl dr
    exact ⟨d, by rw [hd, hl, hr]; rfl⟩
  | .parenthesized inner => by
    obtain ⟨d, hd⟩ := exists_derivation_text inner
    refine ⟨ofFactor (group d), ?_⟩
    change (Expr.parenthesized d.toExpr).text = inner.toExpr.parenthesized.text
    rw [Expr.parenthesized, Expr.parenthesized, Expr.text_withText, Expr.text_withText, hd]

/-- So are the texts of arguments. -/
theorem exists_derivations_texts : (as : List Assembly) →
    ∃ ds : List (Derivation .expr),
      (ds.map toExpr).map Expr.text = (Assembly.toExprs as).map Expr.text
  | [] => ⟨[], rfl⟩
  | a :: as => by
    obtain ⟨d, hd⟩ := exists_derivation_text a
    obtain ⟨ds, hds⟩ := exists_derivations_texts as
    exact ⟨d :: ds, congrArg₂ List.cons hd hds⟩

end

/-! ### Reading what was put together -/

/-- **Precedence.** The text of an expression that was put together by hand is always read, as an
expression with the same text. It is read as the same expression, with the same parts and texts at
all nodes, exactly when it respects precedence: no multiplicative operator has a sum or difference
to its left or any operator to its right, and no additive one has a sum or difference to its right,
unless there are parentheses around it. -/
theorem parse_text_iff_respectsPrecedence (a : Assembly) :
    (∃ e, Expr.parse a.toExpr.text = .ok e ∧ e.text = a.toExpr.text) ∧
      (Expr.parse a.toExpr.text = .ok a.toExpr ↔ a.respectsPrecedence = true) := by
  constructor
  · obtain ⟨d, hd⟩ := exists_derivation_text a
    have hparse := parse_text_toExpr d
    rw [hd] at hparse
    exact ⟨d.toExpr, hparse, hd⟩
  · rw [← exists_derivation_iff]
    constructor
    · intro h
      obtain ⟨d, -, hd⟩ := (parse_eq_ok_iff _ _).1 h
      exact ⟨d, hd⟩
    · rintro ⟨d, hd⟩
      rw [← hd]
      exact parse_text_toExpr d

end FormulaSheet.Grammar
