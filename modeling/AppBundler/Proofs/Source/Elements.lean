import AppBundler.Proofs.Source.Respelling
import AppBundler.Proofs.Text.LineEnds
/-!
# Marks of closing tags

Each element ends with a closing tag or closes itself, and so has the mark by which a text is known that may have
elements. A text without the marks has no elements: what is read in it with elements is read without them too. The same
holds of tokens that are neither templates nor elements.
-/

namespace AppBundler

namespace Lexeme

/-- A closing tag begins in a text, or an element closes itself there. -/
def HasMark (s : List Char) : Prop := ['<', '/'] <:+: s ∨ ['/', '>'] <:+: s

theorem HasMark.of_infix {s t : List Char} (h : HasMark s) (hst : s <:+: t) : HasMark t :=
  h.imp (·.trans hst) (·.trans hst)

theorem HasMark.behind {s : List Char} (h : HasMark s) (front : List Char) : HasMark (front ++ s) :=
  h.of_infix (List.suffix_append front s).isInfix

/-- A text that has a mark and ends with an angle bracket. -/
structure EndsInTag (s : List Char) : Prop where
  mark : HasMark s
  angle : ['>'] <:+ s

theorem EndsInTag.behind {s : List Char} (h : EndsInTag s) (front : List Char) : EndsInTag (front ++ s) :=
  ⟨h.mark.behind front, h.angle.trans (List.suffix_append front s)⟩

/-- A closing tag goes up to its angle bracket. -/
theorem closingRest_angle {s p r : List Char} (h : closingRest s = .ok ⟨p, r⟩) : ['>'] <:+ p := by
  fun_induction closingRest s generalizing p with
  | case1 => cases h
  | case2 =>
    cases h
    exact List.suffix_rfl
  | case3 c s hother ih =>
    obtain ⟨q, hq, rfl⟩ := Scan.precede_eq_ok_iff.mp h
    exact (ih hq).trans (List.suffix_append _ q)

variable {jsx : Bool} {n : Nat}

/-! ## Elements have marks -/

/-- What the scanners of one level read of an element ends in a tag. -/
structure LevelMarks (jsx : Bool) (n : Nat) : Prop where
  element : ∀ {s p r}, elementRest jsx n s = .ok ⟨p, r⟩ → EndsInTag p
  attributes : ∀ {s p r}, attributesRest jsx n s = .ok ⟨p, r⟩ → EndsInTag p
  children : ∀ {s p r}, childrenRest jsx n s = .ok ⟨p, r⟩ → EndsInTag p

section Step

variable {s p r : List Char} (h : LevelMarks jsx n)
include h

/-- An element goes on with its attributes or its children. -/
theorem elementRest_endsInTag (hs : elementRest jsx (n + 1) s = .ok ⟨p, r⟩) : EndsInTag p := by
  unfold elementRest at hs
  split at hs
  case h_1 =>
    obtain ⟨q, hq, rfl⟩ := Scan.precede_eq_ok_iff.mp hs
    exact (h.children hq).behind _
  case h_2 =>
    obtain ⟨q, hq, rfl⟩ := Scan.precede_eq_ok_iff.mp hs
    obtain ⟨q₁, q₂, rest, -, hnext, rfl⟩ := Scan.andThen_eq_ok_iff.mp hq
    exact ((h.attributes hnext).behind _).behind _

/-- Attributes end with the mark of an element that closes itself, or go on with children. -/
theorem attributesRest_endsInTag (hs : attributesRest jsx (n + 1) s = .ok ⟨p, r⟩) : EndsInTag p := by
  cases s with
  | nil => cases hs
  | cons c t =>
  unfold attributesRest at hs
  split at hs
  case isTrue hblank =>
    obtain ⟨q, hq, rfl⟩ := Scan.precede_eq_ok_iff.mp hs
    exact (h.attributes hq).behind _
  split at hs
  case isTrue hend =>
    cases hs
    exact ⟨Or.inr List.infix_rfl, ['/'], rfl⟩
  split at hs
  case isTrue hclose =>
    obtain ⟨q, hq, rfl⟩ := Scan.precede_eq_ok_iff.mp hs
    exact (h.children hq).behind _
  split at hs
  case isTrue hopen =>
    obtain ⟨q, hq, rfl⟩ := Scan.precede_eq_ok_iff.mp hs
    obtain ⟨q₁, q₂, rest, -, hnext, rfl⟩ := Scan.andThen_eq_ok_iff.mp hq
    exact ((h.attributes hnext).behind _).behind _
  split at hs
  case isTrue hname =>
    obtain ⟨q, hq, rfl⟩ := Scan.precede_eq_ok_iff.mp hs
    obtain ⟨q₁, q₂, rest, -, hnext, rfl⟩ := Scan.andThen_eq_ok_iff.mp hq
    exact ((h.attributes hnext).behind _).behind _
  case isFalse hname => cases hs

/-- Children end with a closing tag. -/
theorem childrenRest_endsInTag (hs : childrenRest jsx (n + 1) s = .ok ⟨p, r⟩) : EndsInTag p := by
  cases s with
  | nil => cases hs
  | cons c t =>
  unfold childrenRest at hs
  split at hs
  case isTrue hopen =>
    obtain ⟨q, hq, rfl⟩ := Scan.precede_eq_ok_iff.mp hs
    obtain ⟨q₁, q₂, rest, -, hnext, rfl⟩ := Scan.andThen_eq_ok_iff.mp hq
    exact ((h.children hnext).behind _).behind _
  split at hs
  case isTrue htag =>
    subst htag
    split at hs
    case isTrue hslash =>
      obtain ⟨q, hq, rfl⟩ := Scan.precede_eq_ok_iff.mp hs
      obtain ⟨hne, rfl, -⟩ := closingRest_readsAs hq
      have hangle := closingRest_angle hq
      rw [List.head?_append_of_ne_nil _ hne] at hslash
      obtain ⟨q, rfl⟩ := List.head?_eq_some_iff.mp hslash
      exact ⟨Or.inl ⟨[], q, rfl⟩, hangle.trans (List.suffix_append _ _)⟩
    case isFalse hslash =>
      obtain ⟨q, hq, rfl⟩ := Scan.precede_eq_ok_iff.mp hs
      obtain ⟨q₁, q₂, rest, -, hnext, rfl⟩ := Scan.andThen_eq_ok_iff.mp hq
      exact ((h.children hnext).behind _).behind _
  case isFalse htag =>
    obtain ⟨q, hq, rfl⟩ := Scan.precede_eq_ok_iff.mp hs
    exact (h.children hq).behind _

end Step

/-- **Each element has a mark** and ends with an angle bracket. -/
theorem levelMarks (jsx : Bool) (n : Nat) : LevelMarks jsx n := by
  induction n with
  | zero => exact ⟨nofun, nofun, nofun⟩
  | succ n ih => exact ⟨elementRest_endsInTag ih, attributesRest_endsInTag ih, childrenRest_endsInTag ih⟩

/-! ## Without marks -/

/-- The parts of what has no mark have none. -/
theorem not_hasMark_append {p q : List Char} (h : ¬ HasMark (p ++ q)) : ¬ HasMark p ∧ ¬ HasMark q :=
  ⟨fun hp => h (hp.of_infix (List.prefix_append p q).isInfix), fun hq => h (hq.behind p)⟩

/-- What the first scan reads, the second one reads too, unless it has a mark. -/
def Plainly (x y : Scan) : Prop := ∀ ⦃p r⦄, x = .ok ⟨p, r⟩ → ¬ HasMark p → y = .ok ⟨p, r⟩

namespace Plainly

variable {x y : Scan} {f g : List Char → Scan}

theorem refl (x : Scan) : Plainly x x := fun _ _ h _ => h

theorem precede (h : Plainly x y) (t : List Char) : Plainly (x.precede t) (y.precede t) := by
  intro p r hp hmark
  obtain ⟨q, hq, rfl⟩ := Scan.precede_eq_ok_iff.mp hp
  rw [h hq (not_hasMark_append hmark).2, Scan.precede_ok]

theorem andThen (h : Plainly x y) (hnext : ∀ s, Plainly (f s) (g s)) : Plainly (x.andThen f) (y.andThen g) := by
  intro p r hp hmark
  obtain ⟨q₁, q₂, rest, hq₁, hq₂, rfl⟩ := Scan.andThen_eq_ok_iff.mp hp
  obtain ⟨hmark₁, hmark₂⟩ := not_hasMark_append hmark
  rw [h hq₁ hmark₁, Scan.andThen_ok, hnext rest hq₂ hmark₂, Scan.precede_ok]

end Plainly

/-- What the scanners of one level read without marks is read without elements. -/
structure LevelPlainly (n : Nat) : Prop where
  template : ∀ s, Plainly (templateRest true n s) (templateRest false n s)
  embedded : ∀ inner last s, Plainly (embeddedRest true n inner last s) (embeddedRest false n inner last s)

theorem templateRest_plainly (h : LevelPlainly n) (s : List Char) :
    Plainly (templateRest true (n + 1) s) (templateRest false (n + 1) s) := by
  unfold templateRest
  split
  case h_1 | h_2 | h_3 => exact .refl _
  case h_4 c t heq =>
    cases heq
    exact (h.template t).precede _
  case h_5 t heq =>
    cases heq
    exact ((h.embedded _ _ t).andThen h.template).precede _
  case h_6 c t _ _ _ heq =>
    cases heq
    split
    case isTrue => exact .refl _
    case isFalse => exact (h.template t).precede _

theorem embeddedRest_plainly (h : LevelPlainly n) (inner : Nat) (last : Char) (s : List Char) :
    Plainly (embeddedRest true (n + 1) inner last s) (embeddedRest false (n + 1) inner last s) := by
  cases s with
  | nil => exact .refl _
  | cons c s =>
  unfold embeddedRest
  split
  case isTrue => exact (h.embedded _ _ s).precede _
  split
  case isTrue =>
    cases inner with
    | zero => exact .refl _
    | succ inner => exact (h.embedded _ _ s).precede _
  split
  case isTrue => exact (Plainly.andThen (.refl _) (h.embedded _ _)).precede _
  split
  case isTrue => exact ((h.template s).andThen (h.embedded _ _)).precede _
  split
  case isTrue => exact (Plainly.andThen (.refl _) (h.embedded _ _)).precede _
  split
  case isTrue => exact (Plainly.andThen (.refl _) (h.embedded _ _)).precede _
  rw [if_neg (c := (c = '<' && false && opensOperand last && elementFollows s) = true) (by simp)]
  split
  case isTrue =>
    -- an element has a mark
    intro p r hp hmark
    obtain ⟨q, hq, rfl⟩ := Scan.precede_eq_ok_iff.mp hp
    obtain ⟨q₁, q₂, rest, helement, -, rfl⟩ := Scan.andThen_eq_ok_iff.mp hq
    exact absurd ((levelMarks true n).element helement).mark (not_hasMark_append (not_hasMark_append hmark).2).1
  case isFalse => exact (h.embedded _ _ s).precede _

/-- **Templates without marks** are read without elements, and so are embedded expressions. -/
theorem levelPlainly (n : Nat) : LevelPlainly n := by
  induction n with
  | zero => exact ⟨fun _ => .refl _, fun _ _ _ => .refl _⟩
  | succ n ih => exact ⟨templateRest_plainly ih, embeddedRest_plainly ih⟩

end Lexeme

namespace Lexer

open Lexeme

/-- Whether a text may have elements is told by the marks. -/
theorem mayHaveElements_eq_true_iff {s : List Char} : mayHaveElements s = true ↔ HasMark s := by
  rw [mayHaveElements, Bool.or_eq_true, Text.hasPart_eq_true_iff, Text.hasPart_eq_true_iff]
  rfl

/-- A lexeme is read without elements when it is no element, and no template that has one. -/
theorem lexeme_without {jsx operand : Bool} {kind : TokenKind} {s p r : List Char}
    (h : lexeme jsx operand s = .ok (kind, ⟨p, r⟩))
    (htemplate : kind = .template → ∀ n t q, templateRest jsx n t = .ok ⟨q, r⟩ → p = '\x60' :: q →
      templateRest false n t = .ok ⟨q, r⟩)
    (helement : kind = .jsx → ∀ n t q, elementRest jsx n t = .ok ⟨q, r⟩ → p ≠ '<' :: q) :
    lexeme false operand s = .ok (kind, ⟨p, r⟩) := by
  unfold lexeme at h ⊢
  cases s with
  | nil => exact h
  | cons c s =>
  dsimp only at h ⊢
  split at h
  case isTrue hquote => rwa [if_pos hquote]
  case isFalse hquote =>
  rw [if_neg hquote]
  split at h
  case isTrue htick =>
    obtain ⟨rfl, q, hq, rfl⟩ := tagged_eq_ok_iff.mp h
    rw [if_pos htick, htemplate rfl _ s q hq (by rw [htick])]
    rfl
  case isFalse htick =>
  rw [if_neg htick]
  split at h
  case isTrue hnumber => rwa [if_pos hnumber]
  case isFalse hnumber =>
  rw [if_neg hnumber]
  split at h
  case isTrue hident => rwa [if_pos hident]
  case isFalse hident =>
  rw [if_neg hident]
  split at h
  case isTrue hregex => rwa [if_pos hregex]
  case isFalse hregex =>
  rw [if_neg hregex]
  split at h
  case isTrue hopens =>
    obtain ⟨rfl, q, hq, rfl⟩ := tagged_eq_ok_iff.mp h
    obtain ⟨⟨⟨hangle, -⟩, -⟩, -⟩ : ((c = '<' ∧ jsx = true) ∧ operand = true) ∧ elementFollows s = true := by
      simpa only [Bool.and_eq_true, decide_eq_true_eq] using hopens
    exact absurd (congrArg (· :: q) hangle) (helement rfl _ s q hq)
  case isFalse hopens => rwa [if_neg (by simp)]

/-- A lexeme without marks is read without elements. -/
theorem lexeme_plainly {operand : Bool} {kind : TokenKind} {s p r : List Char}
    (h : lexeme true operand s = .ok (kind, ⟨p, r⟩)) (hmark : ¬ HasMark p) :
    lexeme false operand s = .ok (kind, ⟨p, r⟩) := by
  refine lexeme_without h (fun _ n t q hq hp => ?_) fun _ n t q hq hp => ?_
  · rw [hp] at hmark
    exact (levelPlainly n).template t hq (not_hasMark_append (p := ['\x60']) hmark).2
  · -- an element has a mark
    rw [hp] at hmark
    exact absurd ((levelMarks true n).element hq).mark (not_hasMark_append (p := ['<']) hmark).2

/-- A lexeme without parts of its own is read without elements. -/
theorem lexeme_flat {jsx operand : Bool} {kind : TokenKind} {s p r : List Char}
    (h : lexeme jsx operand s = .ok (kind, ⟨p, r⟩)) (hkind : kind.isNested = false) :
    lexeme false operand s = .ok (kind, ⟨p, r⟩) := by
  refine lexeme_without h (fun htemplate => ?_) fun helement => ?_
  · rw [htemplate] at hkind
    cases hkind
  · rw [helement] at hkind
    cases hkind

variable {x y : Place} {t : Token} {ts : List Token}

theorem Step.plainly (h : Step true x t y) (hmark : ¬ HasMark x.rest) : Step false x t y where
  gap := h.gap
  start := h.start
  nonempty := h.nonempty
  lexeme := by
    rw [h.rest_eq] at hmark
    exact lexeme_plainly h.lexeme (not_hasMark_append (not_hasMark_append hmark).2).1
  last := h.last
  position := h.position

/-- Steps over a text without marks are taken without elements. -/
theorem Steps.plainly (h : Steps true x ts y) (hmark : ¬ HasMark x.rest) : Steps false x ts y := by
  induction h with
  | refl => exact .refl _
  | head hstep _ ih =>
    refine .head (hstep.plainly hmark) (ih ?_)
    rw [hstep.rest_eq] at hmark
    exact (not_hasMark_append (not_hasMark_append hmark).2).2

/-- **A text without marks of closing tags** is read without elements as it is with them. -/
theorem run_plainly {s : List Char} (h : run true s = .ok ts) (hmark : mayHaveElements s = false) :
    run false s = .ok ts := by
  obtain ⟨z, hsteps, hend⟩ := run_eq_ok_iff_steps.mp h
  refine run_eq_ok_iff_steps.mpr ⟨z, hsteps.plainly fun hrest => ?_, hend⟩
  have hwhole := mayHaveElements_eq_true_iff.mpr (hrest.behind (interpreterLine s).text)
  rw [Place.first, interpreterLine_append, hmark] at hwhole
  cases hwhole

/-! ## Without templates and elements -/

/-- Tokens without parts of their own are read without elements. -/
theorem Steps.flat {jsx : Bool} (h : Steps jsx x ts y) (hflat : ∀ t ∈ ts, t.kind.isNested = false) :
    Steps false x ts y := by
  induction h with
  | refl => exact .refl _
  | head hstep _ ih =>
    obtain ⟨hkind, hflat⟩ := List.forall_mem_cons.mp hflat
    refine .head ?_ (ih hflat)
    exact ⟨hstep.gap, hstep.start, hstep.nonempty, lexeme_flat hstep.lexeme hkind, hstep.last, hstep.position⟩

/-- Tokens without parts of their own are those of a reading without elements. -/
theorem run_flat {jsx : Bool} {s : List Char} (h : run jsx s = .ok ts) (hflat : ∀ t ∈ ts, t.kind.isNested = false) :
    run false s = .ok ts := by
  obtain ⟨z, hsteps, hend⟩ := run_eq_ok_iff_steps.mp h
  exact run_eq_ok_iff_steps.mpr ⟨z, hsteps.flat hflat, hend⟩

end Lexer

end AppBundler
