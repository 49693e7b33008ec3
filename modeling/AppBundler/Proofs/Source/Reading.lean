import AppBundler.Proofs.Source.Gaps
import AppBundler.Proofs.Source.Lexemes
import AppBundler.Proofs.Source.Likeness
/-!
# Reading a text token by token

Reading goes from place to place, over one token at a time. Each token takes a character at least, so that the
fuel always suffices. What is read up to some place is read in the same way before any other text that goes on with a
character that ends lexemes, and what is read after a token depends on little of it.
-/

namespace AppBundler

namespace Lexer

open Lexeme

/-- A place in the reading of a text. -/
structure Place where
  /-- The token before the place. -/
  last : Option Token
  position : Position
  /-- The text that is left. -/
  rest : List Char

/-- A token is read. -/
structure Step (jsx : Bool) (x : Place) (t : Token) (y : Place) : Prop where
  gap : ∃ doc, Gap.scan x.rest = .ok ⟨t.gap.toList, doc, t.text.toList ++ y.rest⟩ ∧ t.doc = doc.map String.ofList
  start : t.start = x.position.after t.gap.toList
  nonempty : t.text.toList ++ y.rest ≠ []
  lexeme : lexeme jsx (Token.operandMayFollow x.last) (t.text.toList ++ y.rest) = .ok (t.kind, ⟨t.text.toList, y.rest⟩)
  last : y.last = some t
  position : y.position = t.start.after t.text.toList

/-- Tokens are read one after another. -/
inductive Steps (jsx : Bool) : Place → List Token → Place → Prop where
  | refl (x : Place) : Steps jsx x [] x
  | head {x y z : Place} {t : Token} {ts : List Token} : Step jsx x t y → Steps jsx y ts z → Steps jsx x (t :: ts) z

/-- All tokens from a place on. -/
def from? (jsx : Bool) (n : Nat) (x : Place) : Except SyntaxError (List Token) := tokensFrom jsx n x.last x.position x.rest

/-! ## Lexemes are parts of the text -/

/-- A lexeme is the beginning of its text, and not empty. -/
theorem lexeme_append {jsx operand : Bool} {s p r : List Char} {kind : TokenKind} (hs : s ≠ [])
    (h : lexeme jsx operand s = .ok (kind, ⟨p, r⟩)) : p ≠ [] ∧ s = p ++ r := by
  obtain ⟨c, s, rfl⟩ := List.exists_cons_of_ne_nil hs
  unfold lexeme at h
  dsimp only at h
  split at h
  case isTrue hquote =>
    obtain ⟨rfl, q, hq, rfl⟩ := tagged_eq_ok_iff.mp h
    have hplain : c ≠ '\\' := by
      rintro rfl
      simp at hquote
    obtain ⟨-, rfl, -⟩ := stringRest_readsAs hplain hq
    exact ⟨by simp, rfl⟩
  split at h
  case isTrue htick =>
    obtain ⟨rfl, q, hq, rfl⟩ := tagged_eq_ok_iff.mp h
    obtain ⟨-, rfl, -⟩ := (levelReadsAs jsx (Nat.le_refl _)).template hq
    exact ⟨by simp, rfl⟩
  split at h
  case isTrue hnumber =>
    obtain ⟨-, hnum⟩ := Prod.mk.inj (Except.ok.inj h)
    rw [number_cons] at hnum
    obtain ⟨rfl, hrest⟩ := Split.mk.inj hnum
    obtain ⟨hs, -⟩ := numberRest_endsLike (congrArg (Split.mk _) hrest) (EndsLike.refl r)
    exact ⟨by simp, congrArg (c :: ·) hs⟩
  split at h
  case isTrue hident =>
    obtain ⟨rfl, q, hq, rfl⟩ := tagged_eq_ok_iff.mp h
    obtain ⟨rfl, -, -⟩ := takeWhile_eq_iff.mp (Except.ok.inj hq)
    exact ⟨by simp, rfl⟩
  split at h
  case isTrue hregex =>
    obtain ⟨rfl, q, hq, rfl⟩ := tagged_eq_ok_iff.mp h
    obtain ⟨-, rfl, -⟩ := regexRest_endsLike hq (EndsLike.refl r)
    exact ⟨by simp, rfl⟩
  split at h
  case isTrue helement =>
    obtain ⟨rfl, q, hq, rfl⟩ := tagged_eq_ok_iff.mp h
    obtain ⟨-, rfl, -⟩ := (levelReadsAs jsx (Nat.le_refl _)).element hq
    exact ⟨by simp, rfl⟩
  case isFalse helement =>
    obtain ⟨-, hp⟩ := Prod.mk.inj (Except.ok.inj h)
    have hsplit := punctuator_append (c :: s)
    have hne := punctuator_ne_nil (s := c :: s) (by simp)
    rw [hp] at hsplit hne
    exact ⟨hne, hsplit.symm⟩

/-! ## Steps -/

variable {jsx : Bool} {n m : Nat} {x y z : Place} {t : Token} {ts us : List Token}

/-- The text before a step is what the token spells and what is left. -/
theorem Step.rest_eq (h : Step jsx x t y) : x.rest = t.gap.toList ++ (t.text.toList ++ y.rest) := by
  obtain ⟨doc, hgap, -⟩ := h.gap
  exact ((Gap.readsOn x.rest).1 hgap h.nonempty).1

/-- A token is not empty. -/
theorem Step.text_ne_nil (h : Step jsx x t y) : t.text.toList ≠ [] := (lexeme_append h.nonempty h.lexeme).1

/-- A step leaves less to read. -/
theorem Step.length_lt (h : Step jsx x t y) : y.rest.length < x.rest.length := by
  have hpos := List.length_pos_of_ne_nil h.text_ne_nil
  rw [h.rest_eq, List.length_append, List.length_append]
  omega

/-- A step is the first round of the reading. -/
theorem Step.from?_eq (h : Step jsx x t y) : from? jsx (n + 1) x = (from? jsx n y).map (t :: ·) := by
  obtain ⟨doc, hgap, hdoc⟩ := h.gap
  have hnonempty : (t.text.toList ++ y.rest).isEmpty = false := by simpa using h.nonempty
  have htoken : (⟨t.kind, t.text, t.gap, t.start, doc.map String.ofList⟩ : Token) = t := by rw [← hdoc]
  rw [from?, tokensFrom, hgap]
  simp only [hnonempty, Bool.false_eq_true, if_false, h.lexeme, String.ofList_toList, ← h.start, htoken, ← h.position]
  rw [from?, h.last]
  cases tokensFrom jsx n (some t) y.position y.rest <;> rfl

/-- A reading that yields a token begins with a step. -/
theorem exists_step (h : from? jsx n x = .ok (t :: ts)) :
    ∃ m y, n = m + 1 ∧ Step jsx x t y ∧ from? jsx m y = .ok ts := by
  cases n with
  | zero => cases h
  | succ n =>
    rw [from?, tokensFrom] at h
    cases hgap : Gap.scan x.rest with
    | error f => simp [hgap] at h
    | ok gap =>
      obtain ⟨g, doc, r⟩ := gap
      simp only [hgap] at h
      by_cases hr : r = []
      · simp [hr] at h
      have hnonempty : r.isEmpty = false := by simpa using hr
      simp only [hnonempty, Bool.false_eq_true, if_false] at h
      cases hlexeme : lexeme jsx (Token.operandMayFollow x.last) r with
      | error f => simp [hlexeme] at h
      | ok found =>
        obtain ⟨kind, p, rest⟩ := found
        obtain ⟨-, rfl⟩ := lexeme_append hr hlexeme
        simp only [hlexeme] at h
        split at h
        case h_1 => cases h
        case h_2 more hmore =>
          obtain ⟨rfl, rfl⟩ := List.cons.inj (Except.ok.inj h)
          refine ⟨n, ⟨some _, (x.position.after g).after p, rest⟩, rfl, ⟨⟨doc, ?_, rfl⟩, ?_, ?_, ?_, rfl, ?_⟩, hmore⟩
          · simpa using hgap
          · simp
          · simpa using hr
          · simpa using hlexeme
          · rw [String.toList_ofList]

/-- A token is read where a gap and a lexeme are. -/
theorem exists_step_of_scan {l : Option Token} {s g p r : List Char} {doc : Option (List Char)} {kind : TokenKind}
    (hp : p ≠ []) (hscan : Gap.scan s = .ok ⟨g, doc, p ++ r⟩)
    (hlexeme : lexeme jsx (Token.operandMayFollow l) (p ++ r) = .ok (kind, ⟨p, r⟩)) (q : Position) :
    ∃ t, Step jsx ⟨l, q, s⟩ t ⟨some t, (q.after g).after p, r⟩ ∧ t.kind = kind ∧ t.text = String.ofList p := by
  refine ⟨⟨kind, String.ofList p, String.ofList g, q.after g, doc.map String.ofList⟩, ⟨⟨doc, ?_, rfl⟩, ?_, ?_, ?_, rfl, ?_⟩,
    rfl, rfl⟩
  · simpa using hscan
  · simp
  · simp [hp]
  · simpa using hlexeme
  · simp

/-! ## Runs of steps -/

/-- The text before some steps is what the tokens spell and what is left. -/
theorem Steps.rest_eq (h : Steps jsx x ts y) :
    x.rest = (ts.flatMap fun t => t.gap.toList ++ t.text.toList) ++ y.rest := by
  induction h with
  | refl => simp
  | head hstep _ ih => rw [hstep.rest_eq, ih]; simp

/-- Every step takes a character at least. -/
theorem Steps.length_le (h : Steps jsx x ts y) : y.rest.length + ts.length ≤ x.rest.length := by
  induction h with
  | refl => simp
  | head hstep _ ih =>
    have hlt := hstep.length_lt
    rw [List.length_cons]
    omega

/-- Steps are the first rounds of the reading. -/
theorem Steps.from?_eq (h : Steps jsx x ts y) : from? jsx (n + ts.length) x = (from? jsx n y).map (ts ++ ·) := by
  induction h with
  | refl x => cases from? jsx n x <;> rfl
  | @head x y z t ts hstep _ ih =>
    rw [List.length_cons, ← Nat.add_assoc, hstep.from?_eq, ih]
    cases from? jsx n z <;> rfl

/-- A reading that yields tokens takes as many steps. -/
theorem exists_steps (h : from? jsx n x = .ok (ts ++ us)) :
    ∃ m y, n = m + ts.length ∧ Steps jsx x ts y ∧ from? jsx m y = .ok us := by
  induction ts generalizing n x with
  | nil => exact ⟨n, x, rfl, .refl x, h⟩
  | cons t ts ih =>
    obtain ⟨m, y, rfl, hstep, hrest⟩ := exists_step h
    obtain ⟨k, z, rfl, hsteps, hrest⟩ := ih hrest
    exact ⟨k, z, rfl, .head hstep hsteps, hrest⟩

/-- Steps go one after the other. -/
theorem Steps.append (h : Steps jsx x ts y) (h' : Steps jsx y us z) : Steps jsx x (ts ++ us) z := by
  induction h with
  | refl => exact h'
  | head hstep _ ih => exact .head hstep (ih h')

/-! ## Elsewhere -/

theorem errorAt_congr {p q : Position} (h : p.Alike q) (f : LexicalFault) : errorAt p f = errorAt q f := by
  obtain ⟨hline, hcolumn⟩ := h.after f.read
  rw [errorAt, errorAt, hline, hcolumn]

/-- **The same text at another offset** is read as the same tokens, with any fuel that suffices. -/
theorem tokensFrom_face {l l' : Option Token} {p q : Position} {s : List Char}
    (hlast : Token.operandMayFollow l = Token.operandMayFollow l') (hposition : p.Alike q) (hn : s.length < n)
    (hm : s.length < m) :
    (tokensFrom jsx n l p s).map (List.map Token.face) = (tokensFrom jsx m l' q s).map (List.map Token.face) := by
  induction n generalizing m l l' p q s with
  | zero => omega
  | succ n ih =>
    obtain ⟨m, rfl⟩ : ∃ k, m = k + 1 := ⟨m - 1, by omega⟩
    rw [tokensFrom, tokensFrom]
    cases hgap : Gap.scan s with
    | error f => simp only [errorAt_congr hposition]
    | ok gap =>
      obtain ⟨g, doc, r⟩ := gap
      dsimp only
      by_cases hr : r = []
      · simp [hr]
      have hnonempty : r.isEmpty = false := by simpa using hr
      rw [hnonempty, if_neg (by decide), if_neg (by decide), hlast]
      have hstart := hposition.after g
      cases hlexeme : lexeme jsx (Token.operandMayFollow l') r with
      | error f => simp only [errorAt_congr hstart]
      | ok found =>
        obtain ⟨kind, text, rest⟩ := found
        obtain ⟨hne, rfl⟩ := lexeme_append hr hlexeme
        have hlt : rest.length < s.length := by
          have hlength := congrArg List.length ((Gap.readsOn s).1 hgap hr).1
          have hpos := List.length_pos_of_ne_nil hne
          rw [List.length_append, List.length_append] at hlength
          omega
        let token (start : Position) : Token :=
          ⟨kind, String.ofList text, String.ofList g, start, doc.map String.ofList⟩
        have hmore : (tokensFrom jsx n (some (token (p.after g))) ((p.after g).after text) rest).map (List.map Token.face) =
            (tokensFrom jsx m (some (token (q.after g))) ((q.after g).after text) rest).map (List.map Token.face) :=
          ih rfl (hstart.after text) (by omega) (by omega)
        have hface : (token (p.after g)).face = (token (q.after g)).face :=
          Token.face_eq_iff.mpr ⟨rfl, rfl, rfl, hstart, rfl⟩
        dsimp only at hmore ⊢
        revert hmore
        cases tokensFrom jsx n (some (token (p.after g))) ((p.after g).after text) rest with
        | error e =>
          cases tokensFrom jsx m (some (token (q.after g))) ((q.after g).after text) rest <;> simp [Except.map]
        | ok more =>
          cases tokensFrom jsx m (some (token (q.after g))) ((q.after g).after text) rest with
          | error e => simp [Except.map]
          | ok more' =>
            intro hmore
            simp only [Except.map, List.map_cons, Except.ok.injEq, List.cons.injEq] at hmore ⊢
            exact ⟨hface, hmore⟩

/-! ## Before what ends lexemes -/

section Before

variable {b : Char} (hb : EndsLexeme b) {w r u v : List Char} {p q : Position} {l l' : Option Token}
include hb

/-- A step up to some place is taken before a character that ends lexemes. -/
theorem Step.before (h : Step jsx ⟨l, p, w⟩ t ⟨l', q, r ++ u⟩) :
    Step jsx ⟨l, p, t.gap.toList ++ (t.text.toList ++ (r ++ b :: v))⟩ t ⟨l', q, r ++ b :: v⟩ := by
  refine ⟨?_, h.start, by simp, lexeme_before hb h.text_ne_nil h.lexeme v, h.last, h.position⟩
  obtain ⟨doc, hgap, hdoc⟩ := h.gap
  refine ⟨doc, ?_, hdoc⟩
  have hrest := h.rest_eq
  dsimp only at hgap hrest ⊢
  obtain ⟨-, hstop, hread⟩ := (Gap.readsOn _).1 hgap h.nonempty
  obtain ⟨c, text, htext⟩ := List.exists_cons_of_ne_nil h.text_ne_nil
  have hstop' : Gap.scan (t.text.toList ++ (r ++ b :: v)) = .ok ⟨[], none, t.text.toList ++ (r ++ b :: v)⟩ := by
    rw [htext, List.cons_append, ← List.append_assoc, Gap.scan_eq_nil_iff] at hstop ⊢
    refine ⟨hstop.1, fun hslash => ?_⟩
    exact (EndsLike.append hb (text ++ r) u v).any_eq_false (fun d hd => hd.opensNoComment) (hstop.2 hslash)
  rw [hread, hstop']
  simp [Gap.withDoc, Gap.precede]

/-- **Steps up to some place** are taken in the same way before a character that ends lexemes. -/
theorem Steps.before (h : Steps jsx ⟨l, p, w ++ u⟩ ts ⟨l', q, r ++ u⟩) :
    Steps jsx ⟨l, p, w ++ b :: v⟩ ts ⟨l', q, r ++ b :: v⟩ := by
  generalize hx : Place.mk l p (w ++ u) = x, hz : Place.mk l' q (r ++ u) = z at h
  induction h generalizing l p w with
  | refl =>
    obtain ⟨rfl, rfl, hrest⟩ := Place.mk.inj (hx.trans hz.symm)
    rw [List.append_cancel_right hrest]
    exact .refl _
  | @head x y z t ts hstep hsteps ih =>
    subst hx hz
    obtain ⟨l₁, p₁, rest⟩ := y
    obtain rfl : rest = _ := hsteps.rest_eq
    have hsplit := hstep.rest_eq
    dsimp only at hsplit hstep ih
    generalize ts.flatMap (fun t => t.gap.toList ++ t.text.toList) = spelled at hsplit hstep ih
    obtain rfl : w = t.gap.toList ++ (t.text.toList ++ (spelled ++ r)) :=
      List.append_cancel_right (by simpa using hsplit)
    rw [← List.append_assoc spelled r u] at hstep ih
    have hfirst := hstep.before hb (v := v)
    have hshape : t.gap.toList ++ (t.text.toList ++ (spelled ++ r ++ b :: v)) =
        t.gap.toList ++ (t.text.toList ++ (spelled ++ r)) ++ b :: v := by simp
    rw [hshape] at hfirst
    exact .head hfirst (ih rfl rfl)

end Before

end Lexer

end AppBundler
