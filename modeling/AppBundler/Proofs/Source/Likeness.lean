import AppBundler.Source.Token
import AppBundler.Source.Tree.Literals
/-!
# Tokens that readers cannot tell apart

No reader looks at the offset of a token. So all that is said of a token is said of its face, which has none.
Of the token before a place even less matters: neither its gap nor its documentation. Gaps, documentation and what
stands inside template literals and elements are only passed on, so readers do the same when these are taken for the
same without being so.
-/

namespace AppBundler

/-- Choices that are made alike are related when both sides are. -/
theorem rel_ite {α : Type} {R : α → α → Prop} {p : Prop} [Decidable p] {x y x' y' : α} (h : p → R x y)
    (h' : ¬p → R x' y') : R (if p then x else x') (if p then y else y') := by
  by_cases hp : p
  · rw [if_pos hp, if_pos hp]
    exact h hp
  · rw [if_neg hp, if_neg hp]
    exact h' hp

namespace Position

variable {p q : Position}

/-- The places stand in the same line and column. -/
def Alike (p q : Position) : Prop := p.line = q.line ∧ p.column = q.column

theorem Alike.after (h : p.Alike q) (text : List Char) : (p.after text).Alike (q.after text) := by
  induction text generalizing p q with
  | nil => exact h
  | cons c text ih =>
    refine ih ?_
    unfold step
    split
    · exact ⟨congrArg (· + 1) h.1, rfl⟩
    · exact ⟨h.1, congrArg (· + 1) h.2⟩

/-- After a line feed only the line matters. -/
theorem alike_after_lineFeed (h : p.line = q.line) (text : List Char) :
    (p.after ('\n' :: text)).Alike (q.after ('\n' :: text)) := by
  refine Alike.after (p := p.step '\n') ?_ text
  exact ⟨congrArg (· + 1) h, rfl⟩

end Position

/-! ## Offsets -/

namespace Token

/-- A token without its offset. -/
def face (t : Token) : Token := { t with start := { t.start with offset := 0 } }

/-- What a token is to those behind it. -/
def trace (t : Token) : Token := { t.face with gap := "", doc := none }

variable {t u : Token}

theorem face_eq_iff : t.face = u.face ↔
    t.kind = u.kind ∧ t.text = u.text ∧ t.gap = u.gap ∧ t.start.Alike u.start ∧ t.doc = u.doc := by
  simp only [face, Token.mk.injEq, Position.mk.injEq, true_and, Position.Alike]

theorem trace_eq_iff : t.trace = u.trace ↔ t.kind = u.kind ∧ t.text = u.text ∧ t.start.Alike u.start := by
  simp only [trace, face, Token.mk.injEq, Position.mk.injEq, true_and, and_true, Position.Alike]

end Token

/-! ## Texts -/

/-- Which texts are taken for the same, and what is seen of a text. Texts that differ go over several lines. -/
structure Likeness where
  Like : String → String → Prop
  see : String → String
  refl : ∀ s, Like s s
  append : ∀ {s t u v}, Like s t → Like u v → Like (s ++ u) (t ++ v)
  eq_or_mem : ∀ {s t}, Like s t → s = t ∨ '\n' ∈ s.toList ∧ '\n' ∈ t.toList
  see_eq : ∀ {s t}, Like s t → see s = see t

namespace Likeness

/-- Only equal texts are taken for the same, and all of a text is seen. -/
def exact : Likeness where
  Like := Eq
  see := id
  refl _ := rfl
  append h h' := h ▸ h' ▸ rfl
  eq_or_mem := Or.inl
  see_eq h := h

variable {L : Likeness} {s t : String}

/-- Texts of one line are told apart. -/
theorem contains_congr (h : L.Like s t) {texts : List String} (htexts : ∀ w ∈ texts, '\n' ∉ w.toList) :
    texts.contains s = texts.contains t := by
  rcases L.eq_or_mem h with rfl | ⟨hs, ht⟩
  · rfl
  · have hnone : ∀ w : String, '\n' ∈ w.toList → texts.contains w = false := fun w hw =>
      Bool.eq_false_iff.mpr fun hmem => htexts w (List.contains_iff_mem.mp hmem) hw
    rw [hnone s hs, hnone t ht]

/-- Line feeds stand in both texts or in none. -/
theorem contains_lineFeed (h : L.Like s t) : s.toList.contains '\n' = t.toList.contains '\n' := by
  rcases L.eq_or_mem h with rfl | ⟨hs, ht⟩
  · rfl
  · rw [List.contains_iff_mem.mpr hs, List.contains_iff_mem.mpr ht]

end Likeness

/-! ## Tokens -/

/-- Whether a token of the kind may have line ends in it that are not escaped. -/
def TokenKind.isNested (kind : TokenKind) : Bool := kind = .template || kind = .jsx

namespace Token

/-- Tokens that are the same to those behind them. -/
structure TraceLike (L : Likeness) (t u : Token) : Prop where
  kind : t.kind = u.kind
  text : L.Like t.text u.text
  flat : t.kind.isNested = false → t.text = u.text
  start : t.start.Alike u.start

/-- Tokens that readers cannot tell apart. -/
structure Like (L : Likeness) (t u : Token) : Prop extends TraceLike L t u where
  gap : L.Like t.gap u.gap
  doc : t.doc.map L.see = u.doc.map L.see
  template : t.kind = .template → (Literal.template? t.text).map L.see = (Literal.template? u.text).map L.see

variable {L : Likeness} {t u : Token}

theorem traceLike_of_trace (h : t.trace = u.trace) : t.TraceLike .exact u := by
  obtain ⟨hkind, htext, hstart⟩ := trace_eq_iff.mp h
  exact ⟨hkind, htext, fun _ => htext, hstart⟩

theorem like_of_face (h : t.face = u.face) : t.Like .exact u := by
  obtain ⟨hkind, htext, hgap, hstart, hdoc⟩ := face_eq_iff.mp h
  exact ⟨⟨hkind, htext, fun _ => htext, hstart⟩, hgap, by rw [hdoc], fun _ => by rw [htext]⟩

theorem Like.refl (t : Token) : t.Like L t :=
  ⟨⟨rfl, L.refl _, fun _ => rfl, rfl, rfl⟩, L.refl _, rfl, fun _ => rfl⟩

namespace TraceLike

variable (h : t.TraceLike L u)
include h

/-- The text of a token of a flat kind counts. -/
theorem text_test (kind : TokenKind) (hflat : kind.isNested = false) (q : String → Bool) :
    (t.kind = kind && q t.text) = (u.kind = kind && q u.text) := by
  rw [← h.kind]
  by_cases hkind : t.kind = kind
  · rw [h.flat (hkind ▸ hflat)]
  · simp [hkind]

theorem isPunct_congr (text : String) : t.isPunct text = u.isPunct text := h.text_test .punct rfl (· = text)

theorem isPunctOf_congr (texts : List String) : t.isPunctOf texts = u.isPunctOf texts := h.text_test .punct rfl texts.contains

theorem isIdent_congr (name : String) : t.isIdent name = u.isIdent name := h.text_test .ident rfl (· = name)

theorem stringValue?_congr : t.stringValue? = u.stringValue? := by
  rw [stringValue?, stringValue?, ← h.kind]
  by_cases hkind : t.kind = .string
  · rw [h.flat (by rw [hkind]; rfl)]
  · rw [if_neg hkind, if_neg hkind]

end TraceLike

theorem Like.newlineBefore_congr (h : t.Like L u) : t.newlineBefore = u.newlineBefore := L.contains_lineFeed h.gap

end Token

end AppBundler
