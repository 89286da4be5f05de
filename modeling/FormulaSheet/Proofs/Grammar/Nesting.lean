import FormulaSheet.Proofs.Grammar.Stopping

/-!
# Regions inside regions

The reader keeps the brackets that are open and what stands around each of them, so it never starts
anew. Still, what stands inside a bracket is read as a region of its own: it gives the same
expression, fails with the same fault and leaves the same tokens. Only then the bracket counts. A
region in parentheses ends with the closing parenthesis, and one in a call also with a comma, after
which the next argument is read in the same way.

## Main definitions

* `Bracket.ends`: the kinds of tokens that end a region inside a bracket.
* `Bracket.resume`: what is known when such a region has been read.
* `Reader.within`: a reader with more brackets around it.
* `Reader.readOn`: what is read after a region inside a bracket.

## Main results

* `Reader.read_inside`: a region inside a bracket is read as a region of its own.
* `Reader.read_stops`: where reading a region stops, inside brackets and outside of them.
-/

namespace FormulaSheet

namespace Bracket

/-- The kinds of tokens that end a region inside a bracket. -/
def ends : Bracket → List TokenKind
  | group _ => [.closeParen]
  | call .. => [.comma, .closeParen]

/-- The fault of a formula that ends where a bracket is open. -/
def unclosed : Bracket → ParseError
  | group _ => .expected .closeParen none
  | call name _ _ => .unclosedCall name

/-- What is known when the region with the expression `e` inside a bracket has been ended by a token
of the kind `k`; the brackets around it are `brackets`. -/
def resume (e : Expr) (k : TokenKind) (brackets : List Bracket) : Bracket → Reader
  | group outer => ⟨.operand e.parenthesized :: outer, brackets, .item⟩
  | call name args outer =>
    if k = .comma then ⟨[], .call name (e :: args) outer :: brackets, .item⟩
    else ⟨.operand (.ofCall name (e :: args).reverse) :: outer, brackets, .item⟩

/-- No argument is complete: the call can be closed without any. -/
def mayBeEmpty : Bracket → Bool
  | call _ [] _ => true
  | _ => false

end Bracket

namespace Reader

open Token Grammar

/-- The reader with the brackets `outer` around those it has. -/
def within (r : Reader) (outer : List Bracket) : Reader :=
  { r with brackets := r.brackets ++ outer }

/-- Reading goes on after a region inside the bracket `b`. -/
def readOn (ends : List TokenKind) (b : Bracket) (outer : List Bracket) :
    Except ParseError Expr × List Token → Except ParseError Expr × List Token
  | (.error e, rest) => (.error e, rest)
  | (.ok _, []) => (.error b.unclosed, [])
  | (.ok e, t :: rest) => read ends (b.resume e t.kind outer) rest

variable {r : Reader} {t : Token} {b : Bracket} {outer : List Bracket}

/-- A reader without items, brackets and a begun item has read nothing. -/
theorem eq_start (hitems : r.items = []) (hb : r.brackets = []) (hnext : r.next = .item) :
    r = start := by
  rcases r with ⟨items, brackets, next⟩
  obtain rfl := hitems
  obtain rfl := hb
  obtain rfl := hnext
  rfl

/-! ### One token inside a bracket -/

/-- At the end of the formula the bracket around the region is missing its end, if nothing else
is. -/
theorem finish_within (r : Reader) (b : Bracket) (outer : List Bracket) :
    (r.within (b :: outer)).finish = r.finish >>= fun _ => .error b.unclosed := by
  rcases r with ⟨items, brackets, next⟩
  cases next with
  | item =>
    simp only [within, finish]
    cases Region.close items.reverse with
    | error e => rfl
    | ok e =>
      cases brackets with
      | nil => cases b <;> rfl
      | cons b' brackets => cases b' <;> rfl
  | _ => rfl

/-- A comma that does not end the region. Outside the brackets of the region it is at fault, with a
group around it as without. -/
theorem comma_within (h : r.brackets = [] → .comma ∉ b.ends) :
    (r.within (b :: outer)).comma t = r.comma t >>= fun r' => .ok (r'.within (b :: outer)) := by
  rcases r with ⟨items, _ | ⟨b', brackets⟩, next⟩
  · cases b with
    | group => rfl
    | call => simp [Bracket.ends] at h
  · cases b' with
    | group => rfl
    | call =>
      simp only [within, Reader.comma]
      cases Region.close items.reverse <;> rfl

/-- A closing parenthesis ends the innermost bracket of the region. -/
theorem closing_within (h : r.brackets ≠ []) :
    (r.within (b :: outer)).closing t = r.closing t >>= fun r' => .ok (r'.within (b :: outer)) := by
  rcases r with ⟨items, _ | ⟨b', brackets⟩, next⟩
  · exact absurd rfl h
  · cases b' with
    | group =>
      simp only [within, closing]
      cases Region.close items.reverse <;> rfl
    | call name args outer' =>
      change closing ⟨items, .call name args outer' :: (brackets ++ b :: outer), next⟩ t = _
      simp only [closing]
      by_cases hempty : (items.isEmpty && args.isEmpty) = true
      · rw [if_pos hempty, if_pos hempty]
        rfl
      · rw [if_neg hempty, if_neg hempty]
        cases Region.close items.reverse <;> rfl

theorem item_within (hcomma : t.kind = .comma → r.brackets = [] → .comma ∉ b.ends)
    (hclose : t.kind = .closeParen → r.brackets ≠ []) :
    (r.within (b :: outer)).item t = r.item t >>= fun r' => .ok (r'.within (b :: outer)) := by
  unfold Reader.item
  cases hk : t.kind with
  | number => cases number t.text <;> rfl
  | operator => cases Operator.ofSymbol? t.text <;> rfl
  | comma => exact comma_within (hcomma hk)
  | closeParen => exact closing_within (hclose hk)
  | identifier | colon | openParen => rfl

/-- A token that does not end the region does to it what it would do without the brackets around. -/
theorem step_within (hend : r.isAtEnd b.ends t = false) :
    (r.within (b :: outer)).step t = r.step t >>= fun r' => .ok (r'.within (b :: outer)) := by
  rcases r with ⟨items, brackets, next⟩
  cases next with
  | item =>
    have hopen (hk : t.kind ∈ b.ends) : brackets ≠ [] := by
      rintro rfl
      cases (isAtEnd_iff.2 ⟨rfl, rfl, hk⟩).symm.trans hend
    refine item_within (fun hk hb hmem => hopen (hk ▸ hmem) hb) fun hk => hopen ?_
    cases b <;> simp [Bracket.ends, hk]
  | row column =>
    simp only [within, step]
    split_ifs
    · cases coordinate column with
      | error e => rfl
      | ok col => cases coordinate t.text <;> rfl
    · rfl
  | column | divider | opening =>
    simp only [within, step]
    split_ifs <;> rfl

/-- A token that ends the region closes it. -/
theorem step_within_of_isAtEnd (hend : r.isAtEnd b.ends t = true)
    (hempty : r.items = [] → t.kind = .closeParen → b.mayBeEmpty = false) :
    (r.within (b :: outer)).step t =
      r.finish >>= fun e => .ok (b.resume e t.kind outer) := by
  rcases r with ⟨items, brackets, next⟩
  obtain ⟨rfl, rfl, hk⟩ := isAtEnd_iff.1 hend
  cases b with
  | group outer' =>
    have hclose : t.kind = .closeParen := by simpa [Bracket.ends] using hk
    simp only [within, step, item, hclose, closing, finish]
    cases Region.close items.reverse <;> rfl
  | call name args outer' =>
    obtain hcomma | hclose : t.kind = .comma ∨ t.kind = .closeParen := by
      simpa [Bracket.ends] using hk
    · simp only [within, step, item, hcomma, Reader.comma, finish]
      cases Region.close items.reverse <;> rfl
    · have hargs : (items.isEmpty && args.isEmpty) = false := by
        cases items with
        | nil =>
          cases args with
          | nil => cases hempty rfl hclose
          | cons => rfl
        | cons => rfl
      simp only [within, step, item, hclose, closing, finish, List.nil_append, hargs]
      cases Region.close items.reverse <;> rfl

/-! ### All tokens inside a bracket -/

/-- The faults of a region are found in front of a token. -/
theorem takesToken_of_finish (hnext : r.next = .item) (hb : r.brackets = []) {e : ParseError}
    (h : r.finish = .error e) : e.takesToken = false := by
  rcases r with ⟨items, brackets, next⟩
  obtain rfl := hnext
  obtain rfl := hb
  obtain h | ⟨_, _, h⟩ := of_bind_eq_error h
  · cases Region.fault_of_close h <;> rfl
  · cases h

/-- A region inside a bracket, of which some tokens may have been read, is read as it would be
without the brackets around it. -/
theorem read_within (ends : List TokenKind) (r : Reader) (b : Bracket) (outer : List Bracket)
    (ts : List Token)
    (hempty : r = start → b.mayBeEmpty = true → ∀ t ∈ ts.head?, t.kind ≠ .closeParen) :
    read ends (r.within (b :: outer)) ts = readOn ends b outer (read b.ends r ts) := by
  -- Both readers take the same tokens up to the one that ends the region. The reader alone leaves
  -- it, and the one inside the bracket ends the bracket or an argument with it.
  induction ts generalizing r with
  | nil =>
    rw [read, read, finish_within]
    cases r.finish <;> rfl
  | cons t ts ih =>
    have hopen : (r.within (b :: outer)).isAtEnd ends t = false := by simp [isAtEnd, within]
    rw [read, read, hopen]
    cases hend : r.isAtEnd b.ends t with
    | true =>
      obtain ⟨hb, hnext, -⟩ := isAtEnd_iff.1 hend
      rw [step_within_of_isAtEnd hend]
      · cases hfinish : r.finish with
        | error e =>
          -- A region that does not close leaves the token that ends it, in either reader.
          have htakes := takesToken_of_finish hnext hb hfinish
          change (_, if e.takesToken then ts else t :: ts) = (_, t :: ts)
          rw [htakes]
          rfl
        | ok e => rfl
      · intro hitems hk
        rw [← Bool.not_eq_true]
        exact fun hcall => hempty (eq_start hitems hb hnext) hcall t rfl hk
    | false =>
      rw [step_within hend]
      cases hstep : r.step t with
      | error e => rfl
      | ok r₁ => exact ih r₁ fun hstart => absurd hstart (taken_of_step hstep).ne_start

/-- A region inside a bracket is read as a region of its own, and then reading goes on. Only a call
without arguments has no region inside. -/
theorem read_inside (ends : List TokenKind) (b : Bracket) (outer : List Bracket) (ts : List Token)
    (hempty : b.mayBeEmpty = true → ∀ t ∈ ts.head?, t.kind ≠ .closeParen) :
    read ends ⟨[], b :: outer, .item⟩ ts = readOn ends b outer (read b.ends start ts) :=
  read_within ends start b outer ts fun _ => hempty

/-! ### Regions anywhere -/

/-- **Reading a region stops in good order.** From any position of any list of tokens, and with any
of the ends that regions have, reading stops at that position or later, but not beyond the list. If
it gives an expression it stops later, the tokens in between are balanced, and what follows is no
token or the first one outside all parentheses that can end the region, which is left. Inside a
bracket, where the reader goes on with what it has set aside, a region is read in the same way. -/
theorem read_stops (ends : List TokenKind)
    (hends : ends ∈ [[], [.closeParen], [.comma, .closeParen]]) (ts : List Token) (p : Nat)
    (hp : p ≤ ts.length) :
    (∃ q, p ≤ q ∧ q ≤ ts.length ∧ (read ends start (ts.drop p)).2 = ts.drop q ∧
      ∀ e, (read ends start (ts.drop p)).1 = .ok e →
        p < q ∧ IsBalanced (ts.extract p q) ∧
          (q = ts.length ∨ ∃ t, ts[q]? = some t ∧ t.kind ∈ ends) ∧
          ∀ i t, p ≤ i → i < q → ts[i]? = some t → IsBalanced (ts.extract p i) →
            t.kind ∉ ends) ∧
      ∀ (b : Bracket) (outer : List Bracket), b.ends = ends →
        (b.mayBeEmpty = true → ∀ t ∈ ts[p]?, t.kind ≠ .closeParen) →
          ∀ ends', read ends' ⟨[], b :: outer, .item⟩ (ts.drop p) =
            readOn ends' b outer (read ends start (ts.drop p)) := by
  refine ⟨exists_stop ends hends ts p hp, ?_⟩
  rintro b outer rfl hempty ends'
  refine read_inside ends' b outer (ts.drop p) ?_
  rwa [List.head?_drop]

/-- In `f(g(), )` the region of the first argument stops at the comma, though the second argument
is missing. -/
theorem read_stops_argument :
    [.comma, .closeParen] ∈ [[], [.closeParen], [TokenKind.comma, .closeParen]] ∧
      2 ≤ (ofText "f(g(), )").length ∧
      (read [.comma, .closeParen] start ((ofText "f(g(), )").drop 2)).1 = .ok (.ofCall "g" []) ∧
      (∃ q, 2 ≤ q ∧ q ≤ (ofText "f(g(), )").length ∧
        (read [.comma, .closeParen] start ((ofText "f(g(), )").drop 2)).2 =
          (ofText "f(g(), )").drop q ∧
        2 < q ∧ IsBalanced ((ofText "f(g(), )").extract 2 q) ∧
          (q = (ofText "f(g(), )").length ∨
            ∃ t, (ofText "f(g(), )")[q]? = some t ∧ t.kind ∈ [.comma, .closeParen]) ∧
          ∀ i t, 2 ≤ i → i < q → (ofText "f(g(), )")[i]? = some t →
            IsBalanced ((ofText "f(g(), )").extract 2 i) → t.kind ∉ [.comma, .closeParen]) ∧
      (∀ t ∈ (ofText "f(g(), )")[2]?, t.kind ≠ .closeParen) ∧
      read [] ⟨[], [.call "f" [] []], .item⟩ ((ofText "f(g(), )").drop 2) =
        readOn [] (.call "f" [] []) []
          (read [.comma, .closeParen] start ((ofText "f(g(), )").drop 2)) := by
  have hends : [.comma, .closeParen] ∈ [[], [.closeParen], [TokenKind.comma, .closeParen]] := by
    simp
  have hlength : 2 ≤ (ofText "f(g(), )").length := by decide
  have hok : (read [.comma, .closeParen] start ((ofText "f(g(), )").drop 2)).1 =
      .ok (.ofCall "g" []) := rfl
  have hkind : ∀ t ∈ (ofText "f(g(), )")[2]?, t.kind ≠ .closeParen := by decide
  obtain ⟨⟨q, hp, hq, hrest, hregion⟩, hinside⟩ :=
    read_stops _ hends (ofText "f(g(), )") 2 hlength
  exact ⟨hends, hlength, hok, ⟨q, hp, hq, hrest, hregion _ hok⟩, hkind,
    hinside (.call "f" [] []) [] rfl (fun _ => hkind) []⟩

end Reader

end FormulaSheet
