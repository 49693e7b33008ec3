import Mathlib.Data.Option.Basic
import AppBundler.Source.Lexer
/-!
# Gaps that go on

Blanks and comments that a token follows are read one piece at a time. When something else follows them, the
reading goes on there, and a documentation comment that comes later counts before those in the gap.
-/

namespace AppBundler

namespace Gap

variable {g g' r t : List Char} {d d' : Option (List Char)} {x : Except LexicalFault Gap}

/-! ## Texts and documentation of gaps -/

theorem precede_eq_ok_iff : precede t x = .ok ⟨g, d, r⟩ ↔ ∃ g', x = .ok ⟨g', d, r⟩ ∧ g = t ++ g' := by
  cases x with
  | error f => simp [precede]
  | ok gap =>
    obtain ⟨g', d', r'⟩ := gap
    constructor
    · intro h
      cases h
      exact ⟨g', rfl, rfl⟩
    · rintro ⟨g', h, rfl⟩
      cases h
      rfl

theorem withDoc_eq_ok_iff : withDoc d' x = .ok ⟨g, d, r⟩ ↔ ∃ e, x = .ok ⟨g, e, r⟩ ∧ d = e.or d' := by
  cases x with
  | error f => simp [withDoc]
  | ok gap =>
    obtain ⟨g', e, r'⟩ := gap
    constructor
    · intro h
      cases h
      exact ⟨e, rfl, rfl⟩
    · rintro ⟨e, h, rfl⟩
      cases h
      rfl

theorem precede_precede : precede t (precede g x) = precede (t ++ g) x := by
  cases x <;> simp [precede]

theorem withDoc_precede : withDoc d (precede g x) = precede g (withDoc d x) := by
  cases x <;> rfl

theorem withDoc_withDoc : withDoc d' (withDoc d x) = withDoc (d.or d') x := by
  cases x <;> simp [withDoc, Option.or_assoc]

@[simp]
theorem precede_nil : precede [] x = x := by
  cases x <;> rfl

@[simp]
theorem withDoc_none : withDoc none x = x := by
  cases x <;> simp [withDoc]

/-- A blank is read into the gap. -/
theorem scan_blank {c : Char} (hc : isBlank c = true) (s : List Char) : scan (c :: s) = precede [c] (scan s) := by
  have hplain : c ≠ '/' := by
    rintro rfl
    revert hc
    decide +kernel
  rw [scan, if_pos hc]
  · exact fun _ hslash => absurd hslash hplain
  · exact fun _ hslash => absurd hslash hplain

/-! ## Reading on -/

/-- A reader leaves `r`, where no gap goes on, and would go on before any other text `t`. -/
def ReadsOn (f : List Char → Except LexicalFault Gap) (s : List Char) : Prop :=
  ∀ ⦃g d r⦄, f s = .ok ⟨g, d, r⟩ → r ≠ [] →
    s = g ++ r ∧ scan r = .ok ⟨[], none, r⟩ ∧ ∀ t, f (g ++ t) = precede g (withDoc d (scan t))

/-- A block comment has an end at least. -/
theorem scanBlock_ne_nil {body s : List Char} (h : scanBlock body s = .ok ⟨g, d, r⟩) : g ≠ [] := by
  unfold scanBlock at h
  split at h
  case h_1 => cases h
  case h_2 s =>
    obtain ⟨e, he, -⟩ := withDoc_eq_ok_iff.mp h
    obtain ⟨g', -, rfl⟩ := precede_eq_ok_iff.mp he
    simp
  case h_3 c s _ =>
    obtain ⟨g', -, rfl⟩ := precede_eq_ok_iff.mp h
    simp

section Step

variable {s : List Char} (h : ∀ s', s'.length < s.length →
  ReadsOn scan s' ∧ ReadsOn scanLine s' ∧ ∀ body, ReadsOn (scanBlock body) s')
include h

/-- Blanks and comments go on with blanks and comments. -/
theorem scan_readsOn : ReadsOn scan s := by
  intro g d r hs hr
  unfold scan at hs
  split at hs
  case h_1 s =>
    obtain ⟨g', hg, rfl⟩ := precede_eq_ok_iff.mp hs
    obtain ⟨rfl, hstop, hread⟩ := (h s (by simp only [List.length_cons]; omega)).2.1 hg hr
    exact ⟨by simp, hstop, fun t => by simp [scan, hread, precede_precede]⟩
  case h_2 s =>
    obtain ⟨g', hg, rfl⟩ := precede_eq_ok_iff.mp hs
    obtain ⟨rfl, hstop, hread⟩ := (h s (by simp only [List.length_cons]; omega)).2.2 [] hg hr
    exact ⟨by simp, hstop, fun t => by simp [scan, hread, precede_precede]⟩
  case h_3 =>
    cases hs
    exact absurd rfl hr
  case h_4 c s hline hblock =>
    split at hs
    case isTrue hblank =>
      obtain ⟨g', hg, rfl⟩ := precede_eq_ok_iff.mp hs
      obtain ⟨rfl, hstop, hread⟩ := (h s (by simp)).1 hg hr
      have hplain : c ≠ '/' := by
        rintro rfl
        revert hblank
        decide +kernel
      refine ⟨by simp, hstop, fun t => ?_⟩
      rw [List.cons_append, List.nil_append, List.cons_append, scan, if_pos hblank, hread, precede_precede]
      · rfl
      · exact fun _ hslash => absurd hslash hplain
      · exact fun _ hslash => absurd hslash hplain
    case isFalse hblank =>
      cases hs
      refine ⟨rfl, ?_, fun t => by simp⟩
      rw [scan, if_neg hblank]
      · exact hline
      · exact hblock

/-- A line comment goes on to its end, where blanks and comments go on. -/
theorem scanLine_readsOn : ReadsOn scanLine s := by
  intro g d r hs hr
  cases s with
  | nil =>
    cases hs
    exact absurd rfl hr
  | cons c s =>
    rw [scanLine] at hs
    split at hs
    case isTrue hbreak =>
      obtain ⟨g', hg, rfl⟩ := precede_eq_ok_iff.mp hs
      obtain ⟨rfl, hstop, hread⟩ := (h s (by simp)).1 hg hr
      exact ⟨by simp, hstop, fun t => by simp [scanLine, hbreak, hread, precede_precede]⟩
    case isFalse hbreak =>
      obtain ⟨g', hg, rfl⟩ := precede_eq_ok_iff.mp hs
      obtain ⟨rfl, hstop, hread⟩ := (h s (by simp)).2.1 hg hr
      exact ⟨by simp, hstop, fun t => by simp [scanLine, hbreak, hread, precede_precede]⟩

/-- A block comment goes on to its end, where blanks and comments go on. -/
theorem scanBlock_readsOn (body : List Char) : ReadsOn (scanBlock body) s := by
  intro g d r hs hr
  unfold scanBlock at hs
  split at hs
  case h_1 => cases hs
  case h_2 s =>
    obtain ⟨e, he, rfl⟩ := withDoc_eq_ok_iff.mp hs
    obtain ⟨g', hg, rfl⟩ := precede_eq_ok_iff.mp he
    obtain ⟨rfl, hstop, hread⟩ := (h s (by simp only [List.length_cons]; omega)).1 hg hr
    refine ⟨by simp, hstop, fun t => ?_⟩
    simp [scanBlock, hread, precede_precede, withDoc_precede, withDoc_withDoc]
  case h_3 c s hend =>
    obtain ⟨g', hg, rfl⟩ := precede_eq_ok_iff.mp hs
    obtain ⟨rfl, hstop, hread⟩ := (h s (by simp)).2.2 _ hg hr
    obtain ⟨e, g', rfl⟩ := List.exists_cons_of_ne_nil (scanBlock_ne_nil hg)
    refine ⟨by simp, hstop, fun t => ?_⟩
    rw [List.cons_append, List.nil_append, List.cons_append, scanBlock, hread, precede_precede]
    · rfl
    · exact fun _ hstar hslash => hend (g' ++ r) hstar (by rw [List.cons_append, (List.cons.inj hslash).1])

end Step

/-- All readers of gaps go on where they stop. -/
theorem readsOn (s : List Char) : ReadsOn scan s ∧ ReadsOn scanLine s ∧ ∀ body, ReadsOn (scanBlock body) s := by
  induction hn : s.length using Nat.strongRecOn generalizing s with
  | ind n ih =>
    subst hn
    have h : ∀ s' : List Char, s'.length < s.length →
        ReadsOn scan s' ∧ ReadsOn scanLine s' ∧ ∀ body, ReadsOn (scanBlock body) s' :=
      fun s' hs' => ih s'.length hs' s' rfl
    exact ⟨scan_readsOn h, scanLine_readsOn h, scanBlock_readsOn h⟩

/-- **A gap before something goes on** with whatever comes in its place. -/
theorem scan_append (h : scan (g ++ r) = .ok ⟨g, d, r⟩) (hr : r ≠ []) (t : List Char) :
    scan (g ++ t) = precede g (withDoc d (scan t)) :=
  ((readsOn _).1 h hr).2.2 t

/-- Whether nothing stands before a character is told by it and the next one. -/
theorem scan_eq_nil_iff {c : Char} {s : List Char} : scan (c :: s) = .ok ⟨[], none, c :: s⟩ ↔
    isBlank c = false ∧ (c = '/' → s.head?.any (fun d => d = '/' || d = '*') = false) := by
  constructor
  · intro h
    unfold scan at h
    split at h
    case h_1 =>
      obtain ⟨g, -, hg⟩ := precede_eq_ok_iff.mp h
      simp at hg
    case h_2 =>
      obtain ⟨g, -, hg⟩ := precede_eq_ok_iff.mp h
      simp at hg
    case h_3 heq => cases heq
    case h_4 d t hline hblock heq =>
      obtain ⟨rfl, rfl⟩ := List.cons.inj heq
      split at h
      case isTrue hblank =>
        obtain ⟨g, -, hg⟩ := precede_eq_ok_iff.mp h
        simp at hg
      case isFalse hblank =>
        refine ⟨by simpa using hblank, fun hslash => ?_⟩
        cases s with
        | nil => rfl
        | cons e s =>
          have hline' : e ≠ '/' := fun he => hline s hslash (by rw [he])
          have hblock' : e ≠ '*' := fun he => hblock s hslash (by rw [he])
          simp [hline', hblock']
  · rintro ⟨hblank, hslash⟩
    rw [scan, if_neg (by rw [hblank]; decide)]
    · rintro t rfl rfl
      simp at hslash
    · rintro t rfl rfl
      simp at hslash

end Gap

end AppBundler
