import FormulaSheet.Proofs.Grammar.Steps

/-!
# Where reading a region stops

Reading a region can begin at any position of a list of tokens, whether or not they come out of a
text. It takes one token after the other until one ends the region, none is left or one is at fault,
so it stops at that position or later. The open brackets of the reader count the parentheses that
are open, and a region that is an expression has none left: it is not empty, its parentheses are
balanced, and it ends at the first token outside all of them that can end it.

## Main definitions

* `Token.IsBalanced`: tokens whose parentheses are balanced.
* `Reader.Passes`: tokens that are taken without an end in front of one of them.
* `Reader.Outcome`: the ways in which reading stops.

## Main results

* `Reader.outcome_read`: reading stops in one of these ways.
* `Reader.exists_stop`: where reading a region stops.
-/

namespace FormulaSheet

/-! ### Parentheses -/

namespace Token

/-- The number of parentheses that are open after a token if `d` are open before it; none if it
closes one that is not open. -/
def depthAfter? (d : Nat) (t : Token) : Option Nat :=
  match t.kind with
  | .openParen => some (d + 1)
  | .closeParen => if d = 0 then none else some (d - 1)
  | _ => some d

/-- Each parenthesis that opens is closed later, and each one that closes was opened before. -/
def IsBalanced (ts : List Token) : Prop :=
  ts.foldlM depthAfter? 0 = some 0

instance (ts : List Token) : Decidable (IsBalanced ts) :=
  inferInstanceAs (Decidable (_ = _))

end Token

namespace Reader

open Token Grammar

variable {r r' : Reader} {t : Token} {ends : List TokenKind}

/-! ### One token -/

namespace Taken

/-- The open brackets are the open parentheses. -/
theorem depthAfter?_eq (h : Taken r t r') :
    depthAfter? r.brackets.length t = some r'.brackets.length := by
  cases h with
  | opens b hk => simp [depthAfter?, hk]
  | closes e hk hnext hb => simp [depthAfter?, hk, hb]
  | argument hk hnext hb => simp [depthAfter?, hk, hb]
  | completes i hk | begins hk =>
    unfold depthAfter?
    split <;> simp_all [push]

/-- A token that ends a region or an argument is taken only where an item may stand. -/
theorem next_eq_item (h : Taken r t r') (hk : t.kind = .comma ∨ t.kind = .closeParen) :
    r.next = .item := by
  cases h with
  | closes e _ hnext | argument _ hnext => exact hnext
  | opens b hopen => rcases hk with hk | hk <;> cases hk.symm.trans hopen
  | completes i hne | begins hne => rcases hk with hk | hk <;> simp [hk] at hne

/-- No token leads back to where nothing has been read. -/
theorem ne_start (h : Taken r t r') : r' ≠ start := by
  cases h with
  | begins hk hnext => exact fun heq => hnext (congrArg next heq)
  | _ => nofun

end Taken

/-! ### Many tokens -/

theorem isAtEnd_iff : r.isAtEnd ends t = true ↔
    r.brackets = [] ∧ r.next = .item ∧ t.kind ∈ ends := by
  simp [isAtEnd, and_assoc]

/-- The reader `r` takes the tokens `us`, none of which ends the region, and then is `r'`. -/
inductive Passes (ends : List TokenKind) : Reader → List Token → Reader → Prop where
  | nil (r : Reader) : Passes ends r [] r
  | cons {r r₁ r' : Reader} {t : Token} {us : List Token} (hend : r.isAtEnd ends t = false)
      (hstep : r.step t = .ok r₁) (h : Passes ends r₁ us r') : Passes ends r (t :: us) r'

namespace Passes

variable {us vs : List Token}

theorem steps_eq (h : Passes ends r us r') : r.steps us = .ok r' := by
  induction h with
  | nil => rfl
  | cons _ hstep _ ih => rw [steps_cons_of_step hstep, ih]

theorem split (h : Passes ends r (us ++ vs) r') :
    ∃ r₁, Passes ends r us r₁ ∧ Passes ends r₁ vs r' := by
  induction us generalizing r with
  | nil => exact ⟨r, .nil r, h⟩
  | cons t us ih =>
    cases h with
    | cons hend hstep h =>
      obtain ⟨r₁, hus, hvs⟩ := ih h
      exact ⟨r₁, .cons hend hstep hus, hvs⟩

/-- The open brackets are the open parentheses all the way. -/
theorem foldlM_depthAfter? (h : Passes ends r us r') :
    us.foldlM depthAfter? r.brackets.length = some r'.brackets.length := by
  induction h with
  | nil => rfl
  | cons _ hstep _ ih =>
    rw [List.foldlM_cons, (taken_of_step hstep).depthAfter?_eq]
    exact ih

/-- Outside all parentheses no bracket is open. -/
theorem isBalanced_iff (h : Passes ends start us r') : IsBalanced us ↔ r'.brackets = [] := by
  have hdepth : us.foldlM depthAfter? 0 = some r'.brackets.length := h.foldlM_depthAfter?
  rw [IsBalanced, hdepth, Option.some.injEq, List.length_eq_zero_iff]

end Passes

/-- The ways in which reading stops, with the expression or the fault and the tokens that are left:
in front of a token that ends the region, in front of no token, or at a token that is at fault. -/
inductive Outcome (ends : List TokenKind) (r : Reader) :
    List Token → Except ParseError Expr × List Token → Prop where
  | ended {us r'} (h : Passes ends r us r') (rest : List Token)
      (hrest : ∀ t ∈ rest.head?, r'.isAtEnd ends t = true) :
      Outcome ends r (us ++ rest) (r'.finish, rest)
  | failed {us r' t e} (h : Passes ends r us r') (hend : r'.isAtEnd ends t = false)
      (hstep : r'.step t = .error e) (rest : List Token) :
      Outcome ends r (us ++ t :: rest) (.error e, if e.takesToken then rest else t :: rest)

theorem Outcome.cons {ts : List Token} {x : Except ParseError Expr × List Token} {r₁ : Reader}
    (hend : r.isAtEnd ends t = false) (hstep : r.step t = .ok r₁) (h : Outcome ends r₁ ts x) :
    Outcome ends r (t :: ts) x := by
  cases h with
  | ended h rest hrest => exact .ended (.cons hend hstep h) rest hrest
  | failed h hend' hstep' rest => exact .failed (.cons hend hstep h) hend' hstep' rest

/-- Reading stops in one of the ways there are. -/
theorem outcome_read (ends : List TokenKind) (r : Reader) (ts : List Token) :
    Outcome ends r ts (read ends r ts) := by
  induction ts generalizing r with
  | nil => exact .ended (.nil r) [] (by simp)
  | cons t ts ih =>
    rw [read]
    cases hend : r.isAtEnd ends t with
    | true => exact .ended (.nil r) (t :: ts) (by simp [hend])
    | false =>
      cases hstep : r.step t with
      | ok r₁ => exact .cons hend hstep (ih r₁)
      | error e => exact .failed (.nil r) hend hstep ts

/-- The tokens that are left are the last ones. -/
theorem Outcome.exists_append {ts : List Token} {x : Except ParseError Expr × List Token}
    (h : Outcome ends r ts x) : ∃ us, ts = us ++ x.2 := by
  cases h with
  | @ended us => exact ⟨us, rfl⟩
  | @failed us r' t e _ _ _ rest =>
    cases e.takesToken with
    | true => exact ⟨us ++ [t], by simp⟩
    | false => exact ⟨us, rfl⟩

theorem finish_eq_ok {e : Expr} (h : r.finish = .ok e) : r.next = .item ∧ r.brackets = [] := by
  unfold finish at h
  split at h
  · next hnext =>
    obtain ⟨e', -, h⟩ := exists_of_bind_eq_ok h
    split at h
    · next hb => exact ⟨hnext, hb⟩
    · cases h
    · cases h
  all_goals cases h

/-! ### Regions -/

/-- The tokens `us` in front of `rest` make up a region that tokens of the kinds `ends` can end. -/
structure IsRegion (ends : List TokenKind) (us rest : List Token) : Prop where
  ne_nil : us ≠ []
  isBalanced : IsBalanced us
  kind_mem : ∀ t ∈ rest.head?, t.kind ∈ ends
  kind_notMem : ∀ vs t ws, us = vs ++ t :: ws → IsBalanced vs → t.kind ∉ ends

/-- What is read as an expression is a region. -/
theorem Outcome.isRegion (hends : ends ⊆ [.comma, .closeParen]) {ts rest : List Token} {e : Expr}
    (h : Outcome ends start ts (.ok e, rest)) :
    ∃ us, ts = us ++ rest ∧ IsRegion ends us rest := by
  generalize hx : ((.ok e, rest) : Except ParseError Expr × List Token) = x at h
  cases h with
  | failed => cases hx
  | @ended us r' h rest' hrest =>
    obtain ⟨hfinish, rfl⟩ := Prod.mk.inj hx
    obtain ⟨hnext, hb⟩ := finish_eq_ok hfinish.symm
    refine ⟨us, rfl, ?_, h.isBalanced_iff.2 hb, fun t ht => (isAtEnd_iff.1 (hrest t ht)).2.2, ?_⟩
    · rintro rfl
      cases h
      cases hfinish
    · rintro vs t ws rfl hvs hk
      obtain ⟨r₁, hpass, hrest⟩ := h.split
      cases hrest with
      | cons hend hstep =>
        -- With no bracket open the token would have ended the region, unless an item is begun; but
        -- then it is not taken.
        have hnext₁ := (taken_of_step hstep).next_eq_item (by simpa using hends hk)
        have hat := isAtEnd_iff.2 ⟨hpass.isBalanced_iff.1 hvs, hnext₁, hk⟩
        cases hat.symm.trans hend

/-- No token of a region outside all parentheses can end it. -/
theorem IsRegion.kind_notMem_of_getElem? {us rest : List Token} (h : IsRegion ends us rest)
    {k : Nat} (hk : k < us.length) (ht : (us ++ rest)[k]? = some t)
    (hbalanced : IsBalanced ((us ++ rest).take k)) : t.kind ∉ ends := by
  rw [List.getElem?_append_left hk] at ht
  rw [List.take_append_of_le_length hk.le] at hbalanced
  refine h.kind_notMem (us.take k) t (us.drop (k + 1)) ?_ hbalanced
  obtain ⟨-, rfl⟩ := List.getElem?_eq_some_iff.1 ht
  rw [List.getElem_cons_drop, List.take_append_drop]

/-- Where reading a region stops that begins at the position `p`. -/
theorem exists_stop (ends : List TokenKind)
    (hends : ends ∈ [[], [.closeParen], [.comma, .closeParen]]) (ts : List Token) (p : Nat)
    (hp : p ≤ ts.length) :
    ∃ q, p ≤ q ∧ q ≤ ts.length ∧ (read ends start (ts.drop p)).2 = ts.drop q ∧
      ∀ e, (read ends start (ts.drop p)).1 = .ok e →
        p < q ∧ IsBalanced (ts.extract p q) ∧
          (q = ts.length ∨ ∃ t, ts[q]? = some t ∧ t.kind ∈ ends) ∧
          ∀ i t, p ≤ i → i < q → ts[i]? = some t → IsBalanced (ts.extract p i) →
            t.kind ∉ ends := by
  have hsub : ends ⊆ [.comma, .closeParen] := by
    simp only [List.mem_cons, List.not_mem_nil, or_false] at hends
    rcases hends with rfl | rfl | rfl <;> simp
  have hout := outcome_read ends start (ts.drop p)
  generalize read ends start (ts.drop p) = out at hout ⊢
  obtain ⟨us, hus⟩ := hout.exists_append
  have hlength : us.length + out.2.length = ts.length - p := by
    rw [← List.length_append, ← hus, List.length_drop]
  have hrest : out.2 = ts.drop (p + us.length) := by
    rw [← List.drop_drop, hus, List.drop_left]
  refine ⟨p + us.length, by omega, by omega, hrest, ?_⟩
  intro e he
  have hok : Outcome ends start (ts.drop p) (.ok e, out.2) := by
    rw [← he]
    exact hout
  obtain ⟨us', hus', hregion⟩ := hok.isRegion hsub
  obtain rfl : us' = us := List.append_cancel_right (hus'.symm.trans hus)
  refine ⟨?_, ?_, ?_, ?_⟩
  · have hpos := List.length_pos_iff.2 hregion.ne_nil
    omega
  · rw [List.extract_eq_take_drop, Nat.add_sub_cancel_left, hus, List.take_left]
    exact hregion.isBalanced
  · cases hleft : out.2 with
    | nil =>
      rw [hleft, List.length_nil] at hlength
      exact .inl (by omega)
    | cons t rest =>
      refine .inr ⟨t, ?_, hregion.kind_mem t (by simp [hleft])⟩
      rw [← List.head?_drop, ← hrest, hleft, List.head?_cons]
  · intro i t hpi hi ht hbalanced
    obtain ⟨k, rfl⟩ := Nat.exists_eq_add_of_le hpi
    rw [List.extract_eq_take_drop, Nat.add_sub_cancel_left, hus] at hbalanced
    rw [← List.getElem?_drop, hus] at ht
    exact hregion.kind_notMem_of_getElem? (by omega) ht hbalanced

end Reader

end FormulaSheet
