import Mathlib.Data.List.Forall2
import Mathlib.Logic.Function.Iterate
import AppBundler.Source.Cursor
import AppBundler.Proofs.Source.Likeness
/-!
# Places that parsers cannot tell apart

Two places in two lists of tokens are alike when the tokens ahead are, and the tokens before are the same to those behind
them. At such places all readers do the same, and they stop at such places again. Along with this goes how many tokens
are left when a reader stops, and any relation between places that is kept when a token is passed.
-/

namespace AppBundler

namespace Cursor

variable {L : Likeness} {p q t u : Token} {b b' : Option Token}

theorem endsLine_congr (h : p.TraceLike L q) : endsLine p = endsLine q := by
  rw [endsLine, endsLine, ← h.kind]
  cases hkind : p.kind with
  | ident => rw [h.flat (by rw [hkind]; rfl)]
  | punct => rw [h.flat (by rw [hkind]; rfl)]
  | _ => rfl

theorem beginsLine_congr (h : t.TraceLike L u) : beginsLine t = beginsLine u := by
  rw [beginsLine, beginsLine, ← h.kind]
  cases hkind : t.kind with
  | ident => rw [h.flat (by rw [hkind]; rfl)]
  | _ => rfl

/-- Whether a line ends a statement is told from what the token before is to those behind it, and from the one behind. -/
theorem breaksBetween_congr (hb : Option.Rel (Token.TraceLike L) b b') (h : t.Like L u) :
    breaksBetween b t = breaksBetween b' u := by
  cases hb with
  | none => rfl
  | some hb => rw [breaksBetween, breaksBetween, h.newlineBefore_congr, endsLine_congr hb, beginsLine_congr h.toTraceLike]

end Cursor

/-- Two outcomes are errors at related places, where the same was expected, or related values. -/
inductive Parsed.Rel (P : Cursor → Cursor → Prop) {α : Type} (R : α → α → Prop) : Parsed α → Parsed α → Prop where
  | ok {a b : α} : R a b → Rel P R (.ok a) (.ok b)
  | error {c d : Cursor} (expected : Expectation) : P c d →
      Rel P R (.error (c.unexpected expected)) (.error (d.unexpected expected))

namespace Parsed.Rel

variable {P : Cursor → Cursor → Prop} {α β : Type} {R : α → α → Prop} {S : β → β → Prop} {x y : Parsed α}

/-- Related readers go on as related readers. -/
theorem bind (h : Rel P R x y) {f g : α → Parsed β} (hfg : ∀ a b, R a b → Rel P S (f a) (g b)) :
    Rel P S (x >>= f) (y >>= g) := by
  cases h with
  | ok hab => exact hfg _ _ hab
  | error expected hplaces => exact .error expected hplaces

theorem map (h : Rel P R x y) {f g : α → β} (hfg : ∀ a b, R a b → S (f a) (g b)) : Rel P S (x.map f) (y.map g) := by
  cases h with
  | ok hab => exact .ok (hfg _ _ hab)
  | error expected hplaces => exact .error expected hplaces

theorem mono {R' : α → α → Prop} (h : Rel P R x y) (hR : ∀ a b, R a b → R' a b) : Rel P R' x y := by
  cases h with
  | ok hab => exact .ok (hR _ _ hab)
  | error expected hplaces => exact .error expected hplaces

theorem of_ok {a b : α} (h : Rel P R (.ok a) (.ok b)) : R a b := by
  cases h with
  | ok hab => exact hab

/-- An error is found at places that are related. -/
theorem exists_of_error (h : Rel P R x y) {e : SyntaxError} (hx : x = .error e) : ∃ c d expected, P c d ∧
    e = c.unexpected expected ∧ y = .error (d.unexpected expected) := by
  cases h with
  | ok => cases hx
  | @error c d expected hplaces => exact ⟨c, d, expected, hplaces, (Except.error.inj hx).symm, rfl⟩

end Parsed.Rel

namespace Cursor

variable {L : Likeness} {P : Cursor → Cursor → Prop}

/-- Nothing that readers look at tells the places apart, and places from there on are related. -/
structure Alike (L : Likeness) (P : Cursor → Cursor → Prop) (c d : Cursor) : Prop where
  before : Option.Rel (Token.TraceLike L) c.before d.before
  ahead : List.Forall₂ (Token.Like L) c.ahead d.ahead
  places : ∀ n, P (next^[n] c) (next^[n] d)

/-- The places are alike and fewer than `k` tokens are left there. -/
def Near (L : Likeness) (P : Cursor → Cursor → Prop) (k : Nat) (c d : Cursor) : Prop := Alike L P c d ∧ c.ahead.length < k

/-- Values are equal and the places after them near. -/
def NearPair (L : Likeness) (P : Cursor → Cursor → Prop) (k : Nat) {α : Type} (x y : α × Cursor) : Prop :=
  x.1 = y.1 ∧ Near L P k x.2 y.2

section Pairs

variable {α β : Type} {R : β → β → Prop} {k : Nat} {x y : Parsed (α × Cursor)}

/-- Readers that give the same value at near places go on from there. -/
theorem bindPair (h : Parsed.Rel P (NearPair L P k) x y) {f g : α × Cursor → Parsed β}
    (hfg : ∀ a c d, Alike L P c d → c.ahead.length < k → Parsed.Rel P R (f (a, c)) (g (a, d))) :
    Parsed.Rel P R (x >>= f) (y >>= g) := by
  refine h.bind ?_
  rintro ⟨a, c⟩ ⟨_, d⟩ ⟨rfl, h, hlt⟩
  exact hfg a c d h hlt

theorem mapPair (h : Parsed.Rel P (NearPair L P k) x y) {f g : α × Cursor → β}
    (hfg : ∀ a c d, Alike L P c d → c.ahead.length < k → R (f (a, c)) (g (a, d))) :
    Parsed.Rel P R (x.map f) (y.map g) := by
  refine h.map ?_
  rintro ⟨a, c⟩ ⟨_, d⟩ ⟨rfl, h, hlt⟩
  exact hfg a c d h hlt

theorem bindNear {x y : Parsed Cursor} (h : Parsed.Rel P (Near L P k) x y) {f g : Cursor → Parsed β}
    (hfg : ∀ c d, Alike L P c d → c.ahead.length < k → Parsed.Rel P R (f c) (g d)) :
    Parsed.Rel P R (x >>= f) (y >>= g) :=
  h.bind fun c d hnear => hfg c d hnear.1 hnear.2

/-- A larger bound will do. -/
theorem widen {k' : Nat} (h : Parsed.Rel P (NearPair L P k) x y) (hk : k ≤ k') : Parsed.Rel P (NearPair L P k') x y :=
  h.mono fun _ _ hpair => ⟨hpair.1, hpair.2.1, Nat.lt_of_lt_of_le hpair.2.2 hk⟩

end Pairs

variable {c d : Cursor}

namespace Alike

/-- A place is like itself, if what is said of the places from there on holds. -/
theorem self (h : ∀ n, P (Cursor.next^[n] c) (Cursor.next^[n] c)) : Alike L P c c := by
  refine ⟨?_, List.forall₂_same.mpr fun t _ => .refl t, h⟩
  cases c.before with
  | none => exact .none
  | some t => exact .some (Token.Like.refl t).toTraceLike

theorem length_eq (h : Alike L P c d) : c.ahead.length = d.ahead.length := h.ahead.length_eq

/-- Either no token is left, or the next ones are alike. -/
theorem cases (h : Alike L P c d) : c.ahead = [] ∧ d.ahead = [] ∨
    ∃ t r u s, c.ahead = t :: r ∧ d.ahead = u :: s ∧ t.Like L u := by
  obtain ⟨b, ts⟩ := c
  obtain ⟨b', us⟩ := d
  have hahead : List.Forall₂ (Token.Like L) ts us := h.ahead
  cases hahead with
  | nil => exact Or.inl ⟨rfl, rfl⟩
  | cons hlike _ => exact Or.inr ⟨_, _, _, _, rfl, rfl, hlike⟩

theorem nil_iff (h : Alike L P c d) : c.ahead = [] ↔ d.ahead = [] := by
  rw [← List.length_eq_zero_iff, ← List.length_eq_zero_iff, h.length_eq]

/-- Places stay alike when a token is passed. -/
theorem next (h : Alike L P c d) : Alike L P c.next d.next := by
  obtain ⟨b, ts⟩ := c
  obtain ⟨b', us⟩ := d
  obtain ⟨hbefore, hahead, hplaces⟩ := h
  refine ⟨?_, ?_, fun n => hplaces (n + 1)⟩
  · cases hahead with
    | nil => exact hbefore
    | cons hlike _ => exact .some hlike.toTraceLike
  · cases hahead with
    | nil => exact .nil
    | cons _ hrest => exact hrest

theorem place (h : Alike L P c d) : P c d := h.places 0

/-! ## What comes next -/

theorem peekAt? (h : Alike L P c d) (n : Nat) : Option.Rel (Token.Like L) (c.peekAt? n) (d.peekAt? n) := by
  rw [Cursor.peekAt?, Cursor.peekAt?]
  have hahead := h.ahead
  clear h
  generalize c.ahead = ts, d.ahead = us at hahead ⊢
  induction hahead generalizing n with
  | nil => exact .none
  | cons hlike _ ih =>
    cases n with
    | zero => exact .some hlike
    | succ n => exact ih n

/-- What is told of tokens alike is told alike. -/
theorem any_peekAt? (h : Alike L P c d) (n : Nat) {q : Token → Bool} (hq : ∀ t u : Token, t.Like L u → q t = q u) :
    (d.peekAt? n).any q = (c.peekAt? n).any q := by
  have hrel := h.peekAt? n
  generalize c.peekAt? n = t, d.peekAt? n = u at hrel ⊢
  cases hrel with
  | none => rfl
  | some hlike => exact (hq _ _ hlike).symm

/-- What is made from tokens alike is made alike. -/
theorem bind_peek? (h : Alike L P c d) {α : Type} {f : Token → Option α}
    (hf : ∀ t u : Token, t.Like L u → f t = f u) : d.peek?.bind f = c.peek?.bind f := by
  rcases h.cases with ⟨hc, hd⟩ | ⟨t, r, u, s, hc, hd, hlike⟩
  · simp only [peek?, hc, hd]
  · simp only [peek?, hc, hd, List.head?_cons, Option.bind_some, hf t u hlike]

theorem nthIs (h : Alike L P c d) (n : Nat) (punct : String) : d.nthIs n punct = c.nthIs n punct :=
  h.any_peekAt? n fun _ _ hlike => hlike.isPunct_congr punct

theorem nthIsIdent (h : Alike L P c d) (n : Nat) (name : String) : d.nthIsIdent n name = c.nthIsIdent n name :=
  h.any_peekAt? n fun _ _ hlike => hlike.isIdent_congr name

theorem nthIsKind (h : Alike L P c d) (n : Nat) (kind : TokenKind) : d.nthIsKind n kind = c.nthIsKind n kind :=
  h.any_peekAt? n fun _ _ hlike => by rw [hlike.kind]

theorem nextIs (h : Alike L P c d) (punct : String) : d.nextIs punct = c.nextIs punct := h.nthIs 0 punct

theorem nextIsIdent (h : Alike L P c d) (name : String) : d.nextIsIdent name = c.nextIsIdent name := h.nthIsIdent 0 name

theorem nextIsKind (h : Alike L P c d) (kind : TokenKind) : d.nextIsKind kind = c.nextIsKind kind := h.nthIsKind 0 kind

theorem newlineNext (h : Alike L P c d) : d.newlineNext = c.newlineNext := by
  rcases h.cases with ⟨hc, hd⟩ | ⟨t, r, u, s, hc, hd, hlike⟩
  · simp [Cursor.newlineNext, peek?, hc, hd]
  · simp [Cursor.newlineNext, peek?, hc, hd, hlike.newlineBefore_congr]

theorem atEnd (h : Alike L P c d) : d.atEnd = c.atEnd := by
  rcases h.cases with ⟨hc, hd⟩ | ⟨t, r, u, s, hc, hd, hlike⟩ <;> simp [Cursor.atEnd, hc, hd]

theorem atBreak (h : Alike L P c d) : d.atBreak = c.atBreak := by
  rcases h.cases with ⟨hc, hd⟩ | ⟨t, r, u, s, hc, hd, hlike⟩
  · simp [Cursor.atBreak, peek?, hc, hd]
  · simp [Cursor.atBreak, peek?, hc, hd, breaksBetween_congr h.before hlike]

theorem unexpected (h : Alike .exact P c d) (expected : Expectation) : d.unexpected expected = c.unexpected expected := by
  rcases h.cases with ⟨hc, hd⟩ | ⟨t, r, u, s, hc, hd, hlike⟩
  · have hbefore := h.before
    simp only [Cursor.unexpected, hc, hd]
    generalize c.before = b, d.before = b' at hbefore ⊢
    cases hbefore with
    | none => rfl
    | some hlike =>
      obtain ⟨-, htext, -, hline, hcolumn⟩ := hlike
      simp only [show _ = _ from htext, hline, hcolumn]
  · obtain ⟨⟨-, htext, -, hline, hcolumn⟩, -⟩ := hlike
    simp only [Cursor.unexpected, hc, hd, show t.text = u.text from htext, hline, hcolumn]

/-- A reader that gives up here gives up alike. -/
theorem fails (h : Alike L P c d) (expected : Expectation) {α : Type} {R : α → α → Prop} :
    Parsed.Rel P R (.error (c.unexpected expected)) (.error (d.unexpected expected)) := .error expected h.place

end Alike

/-! ## How many tokens are left -/

/-- A place some tokens further. -/
theorem iterate_next (c : Cursor) (n : Nat) :
    Cursor.next^[n] c = ⟨(c.ahead.take n).getLast?.or c.before, c.ahead.drop n⟩ := by
  induction n with
  | zero => rfl
  | succ n ih =>
    rw [Function.iterate_succ_apply', ih, Cursor.next]
    cases hdrop : c.ahead.drop n with
    | nil =>
      have hle : c.ahead.length ≤ n := List.drop_eq_nil_iff.mp hdrop
      simp [List.drop_eq_nil_of_le, List.take_of_length_le, hle, Nat.le_succ_of_le hle]
    | cons t r =>
      have ht : c.ahead[n]? = some t := by rw [← List.head?_drop, hdrop, List.head?_cons]
      have hr : c.ahead.drop (n + 1) = r := by rw [← List.tail_drop, hdrop, List.tail_cons]
      simp [hr, List.take_add_one, ht]

theorem length_next_le : c.next.ahead.length ≤ c.ahead.length := by
  unfold next
  split <;> simp_all

theorem length_next_lt (h : c.ahead ≠ []) : c.next.ahead.length < c.ahead.length := by
  unfold next
  split <;> simp_all

theorem ahead_ne_nil_of_any {n : Nat} {q : Token → Bool} (h : (c.peekAt? n).any q = true) : n < c.ahead.length := by
  obtain ⟨t, ht, -⟩ := (Option.any_eq_true _ _).mp h
  exact (List.getElem?_eq_some_iff.mp ht).1

theorem ne_nil_of_nextIs {punct : String} (h : c.nextIs punct = true) : c.ahead ≠ [] :=
  List.ne_nil_of_length_pos (ahead_ne_nil_of_any h)

theorem ne_nil_of_nextIsIdent {name : String} (h : c.nextIsIdent name = true) : c.ahead ≠ [] :=
  List.ne_nil_of_length_pos (ahead_ne_nil_of_any h)

theorem ne_nil_of_nextIsKind {kind : TokenKind} (h : c.nextIsKind kind = true) : c.ahead ≠ [] :=
  List.ne_nil_of_length_pos (ahead_ne_nil_of_any h)

theorem Near.mono {k k' : Nat} (h : Near L P k c d) (hk : k ≤ k') : Near L P k' c d := ⟨h.1, by have := h.2; omega⟩

/-- The place itself is near enough when no progress is asked for. -/
theorem Alike.near (h : Alike L P c d) {k : Nat} (hk : c.ahead.length < k) : Near L P k c d := ⟨h, hk⟩

/-- A token that is there is passed. -/
theorem Alike.next_near (h : Alike L P c d) (hne : c.ahead ≠ []) : Near L P c.ahead.length c.next d.next :=
  ⟨h.next, length_next_lt hne⟩

/-! ## Small readers -/

/-- A punctuator is passed on both sides or on neither. -/
theorem Alike.eat? (h : Alike L P c d) (punct : String) : c.eat? punct = none ∧ d.eat? punct = none ∨
    ∃ c' d', c.eat? punct = some c' ∧ d.eat? punct = some d' ∧ Near L P c.ahead.length c' d' := by
  rw [Cursor.eat?, Cursor.eat?, h.nextIs]
  by_cases hnext : c.nextIs punct = true
  · rw [if_pos hnext, if_pos hnext]
    exact Or.inr ⟨_, _, rfl, rfl, h.next_near (ne_nil_of_nextIs hnext)⟩
  · rw [if_neg hnext, if_neg hnext]
    exact Or.inl ⟨rfl, rfl⟩

theorem Alike.eatIdent? (h : Alike L P c d) (name : String) : c.eatIdent? name = none ∧ d.eatIdent? name = none ∨
    ∃ c' d', c.eatIdent? name = some c' ∧ d.eatIdent? name = some d' ∧ Near L P c.ahead.length c' d' := by
  rw [Cursor.eatIdent?, Cursor.eatIdent?, h.nextIsIdent]
  by_cases hnext : c.nextIsIdent name = true
  · rw [if_pos hnext, if_pos hnext]
    exact Or.inr ⟨_, _, rfl, rfl, h.next_near (ne_nil_of_nextIsIdent hnext)⟩
  · rw [if_neg hnext, if_neg hnext]
    exact Or.inl ⟨rfl, rfl⟩

theorem Alike.skip (h : Alike L P c d) (punct : String) : Near L P (c.ahead.length + 1) (c.skip punct) (d.skip punct) := by
  rcases h.eat? punct with ⟨hc, hd⟩ | ⟨c', d', hc, hd, hnear⟩
  · rw [Cursor.skip, Cursor.skip, hc, hd]
    exact h.near (Nat.lt_succ_self _)
  · rw [Cursor.skip, Cursor.skip, hc, hd]
    exact hnear.mono (Nat.le_succ _)

theorem Alike.skipIdent (h : Alike L P c d) (name : String) :
    Near L P (c.ahead.length + 1) (c.skipIdent name) (d.skipIdent name) := by
  rcases h.eatIdent? name with ⟨hc, hd⟩ | ⟨c', d', hc, hd, hnear⟩
  · rw [Cursor.skipIdent, Cursor.skipIdent, hc, hd]
    exact h.near (Nat.lt_succ_self _)
  · rw [Cursor.skipIdent, Cursor.skipIdent, hc, hd]
    exact hnear.mono (Nat.le_succ _)

theorem Alike.expect (h : Alike L P c d) (punct : String) :
    Parsed.Rel P (Near L P c.ahead.length) (c.expect punct) (d.expect punct) := by
  rcases h.eat? punct with ⟨hc, hd⟩ | ⟨c', d', hc, hd, hnear⟩
  · rw [Cursor.expect, Cursor.expect, hc, hd]
    exact h.fails _
  · rw [Cursor.expect, Cursor.expect, hc, hd]
    exact .ok hnear

theorem Alike.identifier (h : Alike L P c d) :
    Parsed.Rel P (NearPair L P c.ahead.length) c.identifier d.identifier := by
  rw [Cursor.identifier, Cursor.identifier]
  rcases h.cases with ⟨hc, hd⟩ | ⟨t, r, u, s, hc, hd, hlike⟩
  · simp only [peek?, hc, hd, List.head?_nil]
    exact h.fails _
  · simp only [peek?, hc, hd, List.head?_cons, ← hlike.kind]
    rw [← hc]
    exact rel_ite (fun hident => .ok ⟨hlike.flat (by rw [hident]; rfl), h.next_near (by simp [hc])⟩) fun _ => h.fails _

/-! ## Lists of tokens -/

section Lists

variable {b b' : Option Token} {t : Token} {ts us r : List Token}

/-- The next token on the other side. -/
theorem Alike.uncons (h : Alike L P ⟨b, t :: r⟩ ⟨b', us⟩) :
    ∃ u s, us = u :: s ∧ t.Like L u ∧ Alike L P ⟨some t, r⟩ ⟨some u, s⟩ := by
  rcases h.cases with ⟨hc, -⟩ | ⟨t', r', u, s, hc, hd, hlike⟩
  · cases hc
  · obtain ⟨rfl, rfl⟩ := List.cons.inj hc
    obtain rfl : us = u :: s := hd
    exact ⟨u, s, rfl, hlike, h.next⟩

/-- No token is left on the other side. -/
theorem Alike.nil (h : Alike L P ⟨b, []⟩ ⟨b', us⟩) : us = [] := by
  rcases h.cases with ⟨-, hd⟩ | ⟨t', r', u, s, hc, -⟩
  · exact hd
  · cases hc

theorem Alike.nameParts (h : Alike L P ⟨b, ts⟩ ⟨b', us⟩) :
    NearPair L P (ts.length + 1) (nameParts b ts) (nameParts b' us) := by
  fun_induction Cursor.nameParts b ts generalizing b' us with
  | case1 b dot t r hname rest c hrest ih =>
    obtain ⟨dot', us, rfl, hdot, h⟩ := h.uncons
    obtain ⟨t', us, rfl, ht, h⟩ := h.uncons
    obtain ⟨hpart, hnear⟩ := ih h
    obtain ⟨-, hkind⟩ : dot.isPunct "." = true ∧ t.kind = .ident := by simpa using hname
    rw [hdot.isPunct_congr, ht.kind] at hname
    rw [Cursor.nameParts, if_pos hname]
    rw [hrest] at hpart hnear
    generalize Cursor.nameParts (some t') us = other at hpart hnear ⊢
    obtain ⟨rest', c'⟩ := other
    obtain rfl : rest = rest' := hpart
    exact ⟨by rw [ht.flat (by rw [hkind]; rfl)], hnear.mono (by simp)⟩
  | case2 b dot t r hname =>
    obtain ⟨dot', us, rfl, hdot, h'⟩ := h.uncons
    obtain ⟨t', us, rfl, ht, -⟩ := h'.uncons
    rw [hdot.isPunct_congr, ht.kind] at hname
    rw [Cursor.nameParts, if_neg hname]
    exact ⟨rfl, h.near (Nat.lt_succ_self _)⟩
  | case3 b ts hshort =>
    have hlength := h.length_eq
    rw [Cursor.nameParts]
    · exact ⟨rfl, h.near (Nat.lt_succ_self _)⟩
    · rintro dot t r rfl
      match ts with
      | [] => simp at hlength
      | [_] => simp at hlength
      | dot :: t :: r => exact hshort dot t r rfl

theorem Alike.qualifiedName (h : Alike L P c d) :
    Parsed.Rel P (NearPair L P c.ahead.length) c.qualifiedName d.qualifiedName := by
  refine h.identifier.bind ?_
  rintro ⟨name, c'⟩ ⟨_, d'⟩ ⟨rfl, h', hlt⟩
  have h' : Alike L P ⟨c'.before, c'.ahead⟩ ⟨d'.before, d'.ahead⟩ := h'
  obtain ⟨hrest, hnear⟩ := h'.nameParts
  exact .ok ⟨congrArg (name ++ ·) hrest, hnear.mono hlt⟩

/-- Groups are closed at the same token. -/
theorem Alike.closeGroups (h : Alike L P ⟨b, ts⟩ ⟨b', us⟩) (depth : Nat) :
    Parsed.Rel P (Near L P ts.length) (closeGroups depth b ts) (closeGroups depth b' us) := by
  induction ts generalizing depth b b' us with
  | nil =>
    obtain rfl := h.nil
    exact h.fails _
  | cons t r ih =>
    obtain ⟨u, s, rfl, hlike, h'⟩ := h.uncons
    rw [Cursor.closeGroups, Cursor.closeGroups]
    simp only [← hlike.isPunctOf_congr]
    have hmore := fun depth => (ih h' depth).mono fun _ _ hnear => hnear.mono (Nat.le_succ r.length)
    exact rel_ite (fun _ => hmore _) fun _ => rel_ite (fun _ => rel_ite (fun _ => .ok (h'.near (by simp))) fun _ => hmore _)
      fun _ => hmore _

/-- Angle brackets are closed at the same token. -/
theorem Alike.closeAngles (h : Alike L P ⟨b, ts⟩ ⟨b', us⟩) (depth inner : Nat) :
    Parsed.Rel P (Near L P ts.length) (closeAngles depth inner b ts) (closeAngles depth inner b' us) := by
  induction ts generalizing depth inner b b' us with
  | nil =>
    obtain rfl := h.nil
    exact h.fails _
  | cons t r ih =>
    obtain ⟨u, s, rfl, hlike, h'⟩ := h.uncons
    rw [Cursor.closeAngles, Cursor.closeAngles]
    simp only [← hlike.isPunctOf_congr, ← hlike.isPunct_congr]
    have hmore := fun depth inner => (ih h' depth inner).mono fun _ _ hnear => hnear.mono (Nat.le_succ r.length)
    refine rel_ite (fun _ => ?_) fun _ => ?_
    · refine rel_ite (fun _ => hmore _ _) fun _ => rel_ite (fun _ => ?_) fun _ => ?_
      · exact rel_ite (fun _ => .ok (h'.near (by simp))) fun _ => hmore _ _
      · exact rel_ite (fun _ => hmore _ _) fun _ => rel_ite (fun _ => h.fails _) fun _ => hmore _ _
    · exact rel_ite (fun _ => hmore _ _) fun _ => rel_ite (fun _ => hmore _ _) fun _ => hmore _ _

/-- A class ends at the same token. -/
theorem Alike.classRest (h : Alike L P ⟨b, ts⟩ ⟨b', us⟩) (inner : Nat) :
    Parsed.Rel P (Near L P ts.length) (classRest inner b ts) (classRest inner b' us) := by
  induction ts generalizing inner b b' us with
  | nil =>
    obtain rfl := h.nil
    exact h.fails _
  | cons t r ih =>
    obtain ⟨u, s, rfl, hlike, h'⟩ := h.uncons
    rw [Cursor.classRest, Cursor.classRest]
    simp only [← hlike.isPunctOf_congr, ← hlike.isPunct_congr]
    have hmore := fun inner => (ih h' inner).mono fun _ _ hnear => hnear.mono (Nat.le_succ r.length)
    refine rel_ite (fun _ => ?_) fun _ => ?_
    · refine rel_ite (fun _ => ?_) fun _ => rel_ite (fun _ => hmore _) fun _ => hmore _
      exact (h'.closeGroups 1).mono fun _ _ hnear => hnear.mono (Nat.le_succ r.length)
    · exact rel_ite (fun _ => hmore _) fun _ => rel_ite (fun _ => hmore _) fun _ => hmore _

/-- A statement ends at the same token. -/
theorem Alike.statementRest (h : Alike L P ⟨b, ts⟩ ⟨b', us⟩) (first : Bool) (depth : Nat) :
    Near L P (ts.length + 1) (statementRest first depth b ts) (statementRest first depth b' us) := by
  induction ts generalizing first depth b b' us with
  | nil =>
    obtain rfl := h.nil
    exact h.near (Nat.lt_succ_self _)
  | cons t r ih =>
    obtain ⟨u, s, rfl, hlike, h'⟩ := h.uncons
    rw [Cursor.statementRest, Cursor.statementRest]
    simp only [← hlike.isPunctOf_congr, ← hlike.isPunct_congr, ← breaksBetween_congr h.before hlike]
    have hmore := fun first depth => (ih h' first depth).mono (Nat.le_succ (r.length + 1))
    have hend : Near L P (r.length + 2) ⟨b, t :: r⟩ ⟨b', u :: s⟩ := h.near (Nat.lt_succ_self _)
    have hpassed : Near L P (r.length + 2) ⟨some t, r⟩ ⟨some u, s⟩ := h'.near (by simp)
    exact rel_ite (fun _ => hend) fun _ => rel_ite (fun _ => hmore _ _) fun _ => rel_ite (fun _ => hmore _ _) fun _ =>
      rel_ite (fun _ => hpassed) fun _ => hmore _ _

/-- An expression ends at the same token. -/
theorem Alike.exprRest (h : Alike L P ⟨b, ts⟩ ⟨b', us⟩) (first : Bool) (depth : Nat) :
    Near L P (ts.length + 1) (exprRest first depth b ts) (exprRest first depth b' us) := by
  induction ts generalizing first depth b b' us with
  | nil =>
    obtain rfl := h.nil
    exact h.near (Nat.lt_succ_self _)
  | cons t r ih =>
    obtain ⟨u, s, rfl, hlike, h'⟩ := h.uncons
    rw [Cursor.exprRest, Cursor.exprRest]
    simp only [endsExpr, ← hlike.isPunctOf_congr, ← breaksBetween_congr h.before hlike]
    have hmore := fun first depth => (ih h' first depth).mono (Nat.le_succ (r.length + 1))
    have hend : Near L P (r.length + 2) ⟨b, t :: r⟩ ⟨b', u :: s⟩ := h.near (Nat.lt_succ_self _)
    exact rel_ite (fun _ => hend) fun _ => rel_ite (fun _ => hmore _ _) fun _ => rel_ite (fun _ => hmore _ _) fun _ =>
      hmore _ _

/-- A member of an object type ends at the same token. -/
theorem Alike.memberRest (h : Alike L P ⟨b, ts⟩ ⟨b', us⟩) (first : Bool) (depth : Nat) :
    Near L P (ts.length + 1) (memberRest first depth b ts) (memberRest first depth b' us) := by
  induction ts generalizing first depth b b' us with
  | nil =>
    obtain rfl := h.nil
    exact h.near (Nat.lt_succ_self _)
  | cons t r ih =>
    obtain ⟨u, s, rfl, hlike, h'⟩ := h.uncons
    rw [Cursor.memberRest, Cursor.memberRest]
    simp only [← hlike.isPunctOf_congr, ← hlike.isPunct_congr, ← hlike.newlineBefore_congr]
    have hmore := fun first depth => (ih h' first depth).mono (Nat.le_succ (r.length + 1))
    have hend : Near L P (r.length + 2) ⟨b, t :: r⟩ ⟨b', u :: s⟩ := h.near (Nat.lt_succ_self _)
    have hpassed : Near L P (r.length + 2) ⟨some t, r⟩ ⟨some u, s⟩ := h'.near (by simp)
    refine rel_ite (fun _ => hend) fun _ => rel_ite (fun _ => hmore _ _) fun _ => rel_ite (fun _ => hmore _ _) fun _ => ?_
    exact rel_ite (fun _ => rel_ite (fun _ => hend) fun _ => hmore _ _) fun _ => rel_ite (fun _ => hpassed) fun _ =>
      hmore _ _

end Lists

/-! ## Passing over what is not read -/

theorem Alike.skipGroup (h : Alike L P c d) : Parsed.Rel P (Near L P c.ahead.length) c.skipGroup d.skipGroup :=
  Alike.closeGroups h 0

theorem Alike.skipAngles (h : Alike L P c d) : Parsed.Rel P (Near L P c.ahead.length) c.skipAngles d.skipAngles :=
  Alike.closeAngles h 0 0

theorem Alike.skipAnglesIfNext (h : Alike L P c d) :
    Parsed.Rel P (Near L P (c.ahead.length + 1)) c.skipAnglesIfNext d.skipAnglesIfNext := by
  rw [Cursor.skipAnglesIfNext, Cursor.skipAnglesIfNext, h.nextIs]
  exact rel_ite (fun _ => h.skipAngles.mono fun _ _ hnear => hnear.mono (Nat.le_succ _))
    fun _ => .ok (h.near (Nat.lt_succ_self _))

theorem Alike.skipClass (h : Alike L P c d) : Parsed.Rel P (Near L P c.ahead.length) c.skipClass d.skipClass :=
  Alike.classRest h 0

theorem Alike.skipExpr (h : Alike L P c d) : Near L P (c.ahead.length + 1) c.skipExpr d.skipExpr := Alike.exprRest h true 0

/-- A statement has one token at least. -/
theorem Alike.skipStatement (h : Alike L P c d) (hne : c.ahead ≠ []) :
    Near L P c.ahead.length c.skipStatement d.skipStatement := by
  obtain ⟨b, ts⟩ := c
  obtain ⟨b', us⟩ := d
  obtain ⟨t, r, rfl⟩ := List.exists_cons_of_ne_nil hne
  obtain ⟨u, s, rfl, hlike, h'⟩ := h.uncons
  rw [Cursor.skipStatement, Cursor.skipStatement, Cursor.statementRest, Cursor.statementRest]
  simp only [← hlike.isPunctOf_congr, ← hlike.isPunct_congr, Bool.not_true, Bool.false_and,
    Bool.false_eq_true, if_false]
  exact rel_ite (fun _ => h'.statementRest false _) fun _ => rel_ite (fun _ => h'.statementRest false _) fun _ =>
    rel_ite (fun _ => h'.near (Nat.lt_succ_self _)) fun _ => h'.statementRest false _

/-- So has a member, unless the brace comes at once. -/
theorem Alike.skipTypeMember (h : Alike L P c d) (hne : c.ahead ≠ []) (hbrace : c.nextIs "\x7d" = false) :
    Near L P c.ahead.length c.skipTypeMember d.skipTypeMember := by
  obtain ⟨b, ts⟩ := c
  obtain ⟨b', us⟩ := d
  obtain ⟨t, r, rfl⟩ := List.exists_cons_of_ne_nil hne
  obtain ⟨u, s, rfl, hlike, h'⟩ := h.uncons
  have hbrace : t.isPunct "\x7d" = false := by simpa [Cursor.nextIs, Cursor.nthIs, Cursor.peekAt?] using hbrace
  rw [Cursor.skipTypeMember, Cursor.skipTypeMember, Cursor.memberRest, Cursor.memberRest]
  simp only [← hlike.isPunctOf_congr, ← hlike.isPunct_congr, ← hlike.newlineBefore_congr, hbrace,
    Bool.not_true, Bool.and_false, Bool.false_and, Bool.false_eq_true, if_false]
  exact rel_ite (fun _ => h'.memberRest false _) fun _ => rel_ite (fun _ => h'.memberRest false _) fun _ =>
    rel_ite (fun _ => h'.near (Nat.lt_succ_self _)) fun _ => h'.memberRest false _

end Cursor

end AppBundler
