import Mathlib.Data.List.DropRight
import AppBundler.App.Model
import AppBundler.Proofs.Text.Parts
/-!
# Texts without the blanks at their line ends

A text is hashed without the blanks at the ends of its lines and at its end. It is trimmed line by line, but whether
a character is left out is told by what is left of the text behind it. So trimming goes character by character, like
a scanner, and a scanner can be followed through a text and through what is left of it.

What trimming leaves of a text are its lines, each without the blanks at its end, up to the last one that is not empty. It
leaves them as they are, so what is left of two texts is the same exactly when these lines are, and it does not change when
it is trimmed again.
-/

namespace AppBundler

namespace Text

variable {c d : Char} {r s t w : List Char}

/-! ## Trimming character by character -/

/-- Whether a character is left out before what is left of the text behind it. -/
def isTrailing (c : Char) (t : List Char) : Bool := isBlank c && (t.isEmpty || (c ≠ '\n' && t.head? = some '\n'))

theorem trimEnd_cons (c : Char) (s : List Char) :
    trimEnd (c :: s) = if isBlank c && (trimEnd s).isEmpty then [] else c :: trimEnd s := by
  simp only [trimEnd, List.reverse_cons, List.dropWhile_append, List.isEmpty_reverse]
  cases hs : (s.reverse.dropWhile isBlank).isEmpty <;> cases hc : isBlank c <;> simp_all

theorem trimEnd_append_blank (hc : isBlank c = true) : trimEnd (s ++ [c]) = trimEnd s :=
  List.rdropWhile_concat_pos isBlank s c hc

theorem trimEnd_trimEnd (s : List Char) : trimEnd (trimEnd s) = trimEnd s := List.rdropWhile_idempotent isBlank s

theorem mem_of_mem_trimEnd (h : c ∈ trimEnd s) : c ∈ s := (List.rdropWhile_prefix isBlank s).subset h

theorem trimEnd_eq_nil_or_head? (s : List Char) : trimEnd s = [] ∨ ∃ c ∈ s.head?, (trimEnd s).head? = some c := by
  cases s with
  | nil => exact Or.inl rfl
  | cons c s =>
    rw [trimEnd_cons]
    split
    · exact Or.inl rfl
    · exact Or.inr ⟨c, rfl, rfl⟩

/-- The text with each of its lines trimmed, and with all its line feeds. -/
def trimEach (s : List Char) : List Char := List.intercalate ['\n'] ((splitLines s).map trimEnd)

/-- There is a first line. -/
theorem exists_splitLines_eq_cons (s : List Char) : ∃ l ls, splitLines s = l :: ls ∧ '\n' ∉ l := by
  induction s with
  | nil => exact ⟨[], [], rfl, by simp⟩
  | cons c r ih =>
    obtain ⟨l, ls, hr, hl⟩ := ih
    by_cases hc : c = '\n'
    · exact ⟨[], l :: ls, by simp [splitLines, hc, hr], by simp⟩
    · exact ⟨c :: l, ls, by simp [splitLines, hc, hr], by simp [Ne.symm hc, hl]⟩

theorem trimEach_cons (c : Char) (r : List Char) : trimEach (c :: r) =
    if isBlank c && (c ≠ '\n' && (trimEach r).head?.all (· = '\n')) then trimEach r else c :: trimEach r := by
  obtain ⟨l, ls, hr, hl⟩ := exists_splitLines_eq_cons r
  by_cases hc : c = '\n'
  · simp [trimEach, splitLines, hc, hr, trimEnd]
  have hcons : splitLines (c :: r) = (c :: l) :: ls := by simp [splitLines, hc, hr]
  rw [trimEach, trimEach, hcons, hr, List.map_cons, List.map_cons, trimEnd_cons]
  -- The character stands at a line end when nothing is left of its line behind it.
  cases hline : trimEnd l with
  | nil =>
    have hbreak : (List.intercalate ['\n'] ([] :: ls.map trimEnd)).head?.all (· = '\n') = true := by
      cases ls <;> simp
    rw [hbreak]
    cases isBlank c <;> simp [hc]
  | cons e es =>
    have he : e ≠ '\n' := by
      rintro rfl
      exact hl (mem_of_mem_trimEnd (hline ▸ List.mem_cons_self))
    simp [he]

/-- No carriage return is left in front of a line feed. -/
theorem trimEnd_dropReturn (l : List Char) : trimEnd (dropReturn l) = trimEnd l := by
  unfold dropReturn
  split
  case isTrue hlast =>
    obtain ⟨l, rfl⟩ := List.getLast?_eq_some_iff.mp hlast
    rw [List.dropLast_concat, trimEnd_append_blank (by decide)]
  case isFalse => rfl

/-- A last line without text is not seen at the end. -/
theorem trimEnd_intercalate_append (ls : List (List Char)) :
    trimEnd (List.intercalate ['\n'] (ls ++ [[]])) = trimEnd (List.intercalate ['\n'] ls) := by
  have happend : ls ≠ [] → List.intercalate ['\n'] (ls ++ [[]]) = List.intercalate ['\n'] ls ++ ['\n'] := by
    intro hne
    induction ls with
    | nil => exact absurd rfl hne
    | cons l ls ih =>
      cases ls with
      | nil => simp
      | cons l' ls => simpa using ih (List.cons_ne_nil _ _)
  by_cases hne : ls = []
  · simp [hne]
  · rw [happend hne, trimEnd_append_blank (by decide)]

/-- A text is trimmed line by line and then at its end. -/
theorem trimLines_eq_trimEnd (s : List Char) : trimLines s = trimEnd (trimEach s) := by
  obtain ⟨l, ls, hs, -⟩ := exists_splitLines_eq_cons s
  obtain ⟨front, last, hsplit⟩ : ∃ front last, splitLines s = front ++ [last] :=
    ⟨_, _, (List.dropLast_append_getLast (hs ▸ List.cons_ne_nil l ls)).symm⟩
  have hfront : (front.map dropReturn).map trimEnd = front.map trimEnd := by simp [trimEnd_dropReturn]
  rw [trimLines, lines, trimEach, hsplit]
  simp only [List.dropLast_concat, List.getLast?_append, List.getLast?_singleton, Option.some_or]
  cases last with
  | nil => rw [hfront, List.map_append, List.map_singleton, show trimEnd [] = [] from rfl, trimEnd_intercalate_append]
  | cons c last => rw [List.map_append, hfront, List.map_append]

@[simp]
theorem trimLines_nil : trimLines [] = [] := rfl

/-- **A text is trimmed character by character**: one is left out when it is a blank before nothing, or one other than
a line feed before a line feed. -/
theorem trimLines_cons (c : Char) (r : List Char) :
    trimLines (c :: r) = if isTrailing c (trimLines r) then trimLines r else c :: trimLines r := by
  rw [trimLines_eq_trimEnd, trimLines_eq_trimEnd, trimEach_cons]
  have hhead := trimEnd_eq_nil_or_head? (trimEach r)
  split
  case isTrue hdrop =>
    simp only [Bool.and_eq_true, decide_eq_true_eq] at hdrop
    obtain ⟨hblank, hbreak, hall⟩ := hdrop
    have htrailing : isTrailing c (trimEnd (trimEach r)) = true := by
      rcases hhead with hnil | ⟨d, hd, hd'⟩
      · simp [isTrailing, hblank, hnil]
      · simp_all [isTrailing]
    rw [htrailing, if_pos rfl]
  case isFalse hkeep =>
    rw [trimEnd_cons]
    rcases hhead with hnil | ⟨d, hd, hd'⟩
    · simp [isTrailing, hnil]
    · have hne : trimEnd (trimEach r) ≠ [] := by
        rintro hnil
        simp [hnil] at hd'
      simp_all [isTrailing]

/-- A character that is no blank is kept. -/
theorem trimLines_cons_of_not_blank (hc : isBlank c = false) (r : List Char) :
    trimLines (c :: r) = c :: trimLines r := by
  rw [trimLines_cons, isTrailing, hc, Bool.false_and, if_neg Bool.false_ne_true]

/-- What is left out is a blank at the end of the text or of a line. -/
theorem trimLines_cons_cases (c : Char) (r : List Char) :
    trimLines (c :: r) = c :: trimLines r ∨
      trimLines (c :: r) = trimLines r ∧ isBlank c = true ∧
        (trimLines r = [] ∨ c ≠ '\n' ∧ ∃ t, trimLines r = '\n' :: t) := by
  rw [trimLines_cons]
  split
  case isTrue htrailing =>
    simp only [isTrailing, Bool.and_eq_true, Bool.or_eq_true, List.isEmpty_iff, decide_eq_true_eq,
      List.head?_eq_some_iff] at htrailing
    exact Or.inr ⟨rfl, htrailing⟩
  case isFalse => exact Or.inl rfl

/-! ## Fronts -/

/-- A blank is none of the other characters. -/
theorem ne_of_isBlank (hc : isBlank c = true) (hd : isBlank d = false) : c ≠ d := by
  rintro rfl
  rw [hc] at hd
  cases hd

/-- A character of a kind without blanks is no blank. -/
theorem isBlank_eq_false_of {q : Char → Bool} (hq : ∀ c, isBlank c = true → q c = false) (hc : q c = true) :
    isBlank c = false := by
  by_contra hblank
  rw [hq c (by simpa using hblank)] at hc
  cases hc

/-- Whether a text begins with a character of some kind does not depend on its blanks. -/
theorem any_head?_trimLines {q : Char → Bool} (hq : ∀ c, isBlank c = true → q c = false) (s : List Char) :
    (trimLines s).head?.any q = s.head?.any q := by
  cases s with
  | nil => rfl
  | cons c r =>
    rcases trimLines_cons_cases c r with hkept | ⟨hdropped, hblank, hnil | ⟨-, t, ht⟩⟩
    · rw [hkept]
      rfl
    · simp [hdropped, hnil, hq c hblank]
    · simp [hdropped, ht, hq c hblank, hq '\n' (by decide)]

/-- A text begins with the same character, if that is no blank. -/
theorem head?_trimLines_eq_iff (hd : isBlank d = false) (s : List Char) :
    (trimLines s).head? = some d ↔ s.head? = some d := by
  have hany : ∀ t : List Char, t.head? = some d ↔ t.head?.any (· = d) = true := by
    intro t
    cases t <;> simp
  rw [hany, hany, any_head?_trimLines]
  exact fun c hc => decide_eq_false (ne_of_isBlank hc hd)

/-- The rest of a line is trimmed, and with it what follows. -/
theorem dropLine_trimLines (s : List Char) :
    (trimLines s).dropWhile (· ≠ '\n') = trimLines (s.dropWhile (· ≠ '\n')) := by
  induction s with
  | nil => rfl
  | cons c r ih =>
    by_cases hc : c = '\n'
    · subst hc
      rcases trimLines_cons_cases '\n' r with hkept | ⟨hdropped, -, hnil | ⟨hne, -⟩⟩
      · simp [hkept]
      · simp [hdropped, hnil]
      · exact absurd rfl hne
    · rw [List.dropWhile_cons_of_pos (by simpa using hc), ← ih]
      rcases trimLines_cons_cases c r with hkept | ⟨hdropped, -⟩
      · rw [hkept, List.dropWhile_cons_of_pos (by simpa using hc)]
      · rw [hdropped]

/-- A front without blanks is kept. -/
theorem trimLines_append_of_forall (hw : ∀ c ∈ w, isBlank c = false) (r : List Char) :
    trimLines (w ++ r) = w ++ trimLines r := by
  induction w with
  | nil => rfl
  | cons c w ih =>
    obtain ⟨hc, hw⟩ := List.forall_mem_cons.mp hw
    rw [List.cons_append, trimLines_cons_of_not_blank hc, ih hw, List.cons_append]

/-- A front without blanks is told before and after. -/
theorem isPrefixOf_trimLines (hw : ∀ c ∈ w, isBlank c = false) (s : List Char) :
    w.isPrefixOf (trimLines s) = w.isPrefixOf s := by
  induction w generalizing s with
  | nil => simp
  | cons d w ih =>
    obtain ⟨hd, hw⟩ := List.forall_mem_cons.mp hw
    by_cases hhead : s.head? = some d
    · obtain ⟨r, rfl⟩ := List.head?_eq_some_iff.mp hhead
      rw [trimLines_cons_of_not_blank hd]
      simp [List.isPrefixOf, ih hw]
    · have hfront : ∀ t : List Char, t.head? ≠ some d → (d :: w).isPrefixOf t = false := by
        intro t ht
        cases t with
        | nil => rfl
        | cons e t =>
          have hde : d ≠ e := fun heq => ht (by rw [heq, List.head?_cons])
          simp [List.isPrefixOf, hde]
      rw [hfront s hhead, hfront (trimLines s) (mt (head?_trimLines_eq_iff hd s).mp hhead)]

theorem isSome_dropFront? (w t : List Char) : (dropFront? w t).isSome = w.isPrefixOf t := by
  induction w generalizing t with
  | nil => simp [dropFront?]
  | cons c w ih =>
    cases t with
    | nil => rfl
    | cons e t =>
      by_cases hce : c = e
      · simp [dropFront?, List.isPrefixOf, hce, ih]
      · simp [dropFront?, List.isPrefixOf, hce]

/-- A text has a part where it has it as an infix. -/
theorem hasPart_eq_true_iff {part s : List Char} : hasPart part s = true ↔ part <:+: s := by
  induction s with
  | nil => simp [hasPart]
  | cons c s ih => rw [hasPart, isSome_dropFront?, Bool.or_eq_true, List.isPrefixOf_iff_prefix, ih, List.infix_cons_iff]

/-- A text that is trimmed has the same parts without blanks. -/
theorem hasPart_trimLines (hd : isBlank d = false) (hw : ∀ c ∈ w, isBlank c = false) (s : List Char) :
    hasPart (d :: w) (trimLines s) = hasPart (d :: w) s := by
  have hcons : ∀ c r, hasPart (d :: w) (c :: r) = ((d :: w).isPrefixOf (c :: r) || hasPart (d :: w) r) := by
    intro c r
    rw [hasPart, isSome_dropFront?]
  induction s with
  | nil => rfl
  | cons c r ih =>
    have hprefix := isPrefixOf_trimLines (List.forall_mem_cons.mpr ⟨hd, hw⟩) (c :: r)
    rcases trimLines_cons_cases c r with hkept | ⟨hdropped, hblank, -⟩
    · rw [hkept] at hprefix ⊢
      rw [hcons, hcons, ih, hprefix]
    · have hdc : d ≠ c := (ne_of_isBlank hblank hd).symm
      rw [hdropped, hcons, ih]
      simp [List.isPrefixOf, hdc]

/-! ## Pieces -/

/-- The last character of a text is no blank. -/
def EndsSolid (s : List Char) : Prop := ∃ t c, s = t ++ [c] ∧ isBlank c = false

theorem EndsSolid.singleton (hc : isBlank c = false) : EndsSolid [c] := ⟨[], c, rfl, hc⟩

theorem EndsSolid.append (h : EndsSolid s) (t : List Char) : EndsSolid (t ++ s) := by
  obtain ⟨u, c, rfl, hc⟩ := h
  exact ⟨t ++ u, c, by simp, hc⟩

/-- **A piece that ends in no blank is trimmed by itself.** -/
theorem trimLines_append (h : EndsSolid s) (r : List Char) : trimLines (s ++ r) = trimLines s ++ trimLines r := by
  obtain ⟨t, d, rfl, hd⟩ := h
  -- Something is left of the piece, so that no character in it is seen to stand before what follows.
  have hpiece : trimLines (t ++ [d] ++ r) = trimLines (t ++ [d]) ++ trimLines r ∧ trimLines (t ++ [d]) ≠ [] := by
    induction t with
    | nil => simp [trimLines_cons_of_not_blank hd]
    | cons c t ih =>
      obtain ⟨heq, hne⟩ := ih
      obtain ⟨e, u, hu⟩ := List.exists_cons_of_ne_nil hne
      have hsame : isTrailing c (e :: u ++ trimLines r) = isTrailing c (e :: u) := rfl
      rw [List.cons_append, List.cons_append, trimLines_cons, trimLines_cons, heq, hu, hsame]
      split
      · exact ⟨rfl, List.cons_ne_nil _ _⟩
      · exact ⟨rfl, List.cons_ne_nil _ _⟩
  exact hpiece.1

/-- Less is left of less text. -/
theorem length_trimLines_le (t s : List Char) : (trimLines s).length ≤ (trimLines (t ++ s)).length := by
  induction t with
  | nil => exact Nat.le_refl _
  | cons c t ih =>
    rcases trimLines_cons_cases c (t ++ s) with hkept | ⟨hdropped, -⟩
    · rw [List.cons_append, hkept, List.length_cons]
      omega
    · rwa [List.cons_append, hdropped]

/-! ## Escaped line ends -/

/-- A backslash stands before blanks that a line ends in. -/
def EscapesBlank (s : List Char) : Prop :=
  ∃ front blanks back, s = front ++ '\\' :: (blanks ++ '\n' :: back) ∧ blanks ≠ [] ∧
    ∀ b ∈ blanks, isBlank b = true ∧ b ≠ '\n'

theorem EscapesBlank.append (h : EscapesBlank s) (t : List Char) : EscapesBlank (t ++ s) := by
  obtain ⟨front, blanks, back, rfl, hne, hblanks⟩ := h
  exact ⟨t ++ front, blanks, back, by simp, hne, hblanks⟩

/-- Before a line feed only blanks are left out. -/
theorem exists_blanks_of_trimLines (h : trimLines s = '\n' :: t) :
    ∃ blanks back, s = blanks ++ '\n' :: back ∧ ∀ b ∈ blanks, isBlank b = true ∧ b ≠ '\n' := by
  induction s with
  | nil => cases h
  | cons c r ih =>
    rcases trimLines_cons_cases c r with hkept | ⟨hdropped, hblank, hnil | ⟨hne, u, hu⟩⟩
    · obtain ⟨rfl, -⟩ := List.cons.inj (hkept.symm.trans h)
      exact ⟨[], r, rfl, by simp⟩
    · rw [hdropped, hnil] at h
      cases h
    · obtain ⟨blanks, back, rfl, hblanks⟩ := ih (hdropped ▸ h)
      exact ⟨c :: blanks, back, rfl, List.forall_mem_cons.mpr ⟨⟨hblank, hne⟩, hblanks⟩⟩

/-- What a backslash escapes before it is left out is a blank. -/
theorem escapesBlank_of_trimLines (hc : isBlank c = true) (hne : c ≠ '\n') (h : trimLines r = '\n' :: t) :
    EscapesBlank ('\\' :: c :: r) := by
  obtain ⟨blanks, back, rfl, hblanks⟩ := exists_blanks_of_trimLines h
  exact ⟨[], c :: blanks, back, rfl, List.cons_ne_nil _ _, List.forall_mem_cons.mpr ⟨⟨hc, hne⟩, hblanks⟩⟩

/-! ## The lines that are left of a text -/

variable {l : List Char} {ls : List (List Char)}

/-- The lines of a text without the blanks at their ends, and without the empty ones behind the last other one. -/
def trimmedLines (s : List Char) : List (List Char) := ((lines s).map trimEnd).rdropWhile List.isEmpty

/-! ## Lines -/

theorem not_mem_of_mem_splitLines (h : l ∈ splitLines s) : '\n' ∉ l := by
  induction s generalizing l with
  | nil =>
    rw [List.mem_singleton.mp h]
    exact List.not_mem_nil
  | cons c r ih =>
    obtain ⟨first, rest, hr, hfirst⟩ := exists_splitLines_eq_cons r
    have hrest : ∀ l' ∈ rest, '\n' ∉ l' := fun l' hl' => ih (by rw [hr]; exact List.mem_cons_of_mem _ hl')
    by_cases hc : c = '\n'
    · rw [splitLines, if_pos hc] at h
      rcases List.mem_cons.mp h with rfl | h
      · exact List.not_mem_nil
      · exact ih h
    · simp only [splitLines, if_neg hc, hr] at h
      rcases List.mem_cons.mp h with rfl | h
      · exact List.not_mem_cons_of_ne_of_not_mem (Ne.symm hc) hfirst
      · exact hrest l h

theorem mem_of_mem_dropReturn (h : c ∈ dropReturn l) : c ∈ l := by
  unfold dropReturn at h
  split at h
  · exact List.dropLast_subset _ h
  · exact h

/-- No line holds a line feed. -/
theorem not_mem_of_mem_lines (h : l ∈ lines s) : '\n' ∉ l := by
  have hwhole : ∀ l ∈ (splitLines s).dropLast.map dropReturn, '\n' ∉ l := by
    intro l hl hmem
    obtain ⟨piece, hpiece, rfl⟩ := List.mem_map.mp hl
    exact not_mem_of_mem_splitLines (List.dropLast_subset _ hpiece) (mem_of_mem_dropReturn hmem)
  simp only [lines] at h
  split at h
  · exact hwhole l h
  · exact hwhole l h
  · rename_i last _ hlast
    rcases List.mem_append.mp h with h | h
    · exact hwhole l h
    · rw [List.mem_singleton.mp h]
      exact not_mem_of_mem_splitLines (List.mem_of_getLast? hlast)

theorem mem_lines_of_mem_trimmedLines (h : l ∈ trimmedLines s) : ∃ line ∈ lines s, trimEnd line = l :=
  List.mem_map.mp ((List.rdropWhile_prefix List.isEmpty _).subset h)

theorem not_mem_of_mem_trimmedLines (h : l ∈ trimmedLines s) : '\n' ∉ l := by
  obtain ⟨line, hline, rfl⟩ := mem_lines_of_mem_trimmedLines h
  exact fun hmem => not_mem_of_mem_lines hline (mem_of_mem_trimEnd hmem)

/-! ## Trimmed texts are trimmed lines -/

/-- A text that ends in a trimmed line with text is trimmed. -/
theorem trimEnd_append_eq_self (hl : trimEnd l = l) (hne : l ≠ []) (s : List Char) : trimEnd (s ++ l) = s ++ l := by
  have hlast : ¬ isBlank (l.getLast hne) = true := List.rdropWhile_eq_self_iff.mp hl hne
  refine List.rdropWhile_eq_self_iff.mpr fun hne' => ?_
  rwa [List.getLast_append_of_ne_nil _ hne]

/-- Trimmed lines that are joined and trimmed lose the empty ones at the end. -/
theorem trimEnd_intercalate (h : ∀ l ∈ ls, trimEnd l = l) :
    trimEnd (List.intercalate ['\n'] ls) = List.intercalate ['\n'] (ls.rdropWhile List.isEmpty) := by
  induction ls using List.reverseRecOn with
  | nil => rfl
  | append_singleton ls l ih =>
    cases l with
    | nil =>
      rw [trimEnd_intercalate_append, ih fun l hl => h l (List.mem_append_left _ hl),
        List.rdropWhile_concat_pos _ _ _ rfl]
    | cons c r =>
      have hline := h (c :: r) (List.mem_append_right _ (List.mem_singleton_self _))
      obtain ⟨front, hfront⟩ := exists_intercalate_append ['\n'] (c :: r) ls
      rw [List.rdropWhile_concat_neg _ _ _ (by simp), hfront]
      exact trimEnd_append_eq_self hline (List.cons_ne_nil _ _) front

/-- **A trimmed text is its trimmed lines**, joined by line feeds. -/
theorem trimLines_eq_intercalate (s : List Char) : trimLines s = List.intercalate ['\n'] (trimmedLines s) := by
  refine trimEnd_intercalate fun l hl => ?_
  obtain ⟨line, -, rfl⟩ := List.mem_map.mp hl
  exact trimEnd_trimEnd line

/-- The lines that are left are read off what is left of the text. -/
theorem trimmedLines_eq (s : List Char) :
    trimmedLines s = if trimLines s = [] then [] else (trimLines s).splitOn '\n' := by
  by_cases hls : trimmedLines s = []
  · rw [trimLines_eq_intercalate, hls]
    rfl
  · have hsplit : (trimLines s).splitOn '\n' = trimmedLines s := by
      rw [trimLines_eq_intercalate]
      exact List.splitOn_intercalate '\n' (fun l hl => not_mem_of_mem_trimmedLines hl) hls
    have hne : trimLines s ≠ [] := by
      intro hnil
      -- An empty text has one line without text, but the last line that is left has some.
      have hlast : ¬ ((trimmedLines s).getLast hls).isEmpty = true := List.rdropWhile_last_not List.isEmpty _ hls
      rw [hnil, List.splitOn_nil] at hsplit
      simp [← hsplit] at hlast
    rw [if_neg hne, hsplit]

/-- **Texts are trimmed to the same text exactly when they have the same trimmed lines.** -/
theorem trimLines_eq_iff : trimLines s = trimLines t ↔ trimmedLines s = trimmedLines t := by
  constructor
  · intro h
    rw [trimmedLines_eq, trimmedLines_eq, h]
  · intro h
    rw [trimLines_eq_intercalate, trimLines_eq_intercalate, h]

/-- **Trimming a trimmed text changes nothing.** -/
theorem trimLines_trimLines (s : List Char) : trimLines (trimLines s) = trimLines s := by
  induction s with
  | nil => rfl
  | cons c r ih =>
    rw [trimLines_cons]
    split
    case isTrue => exact ih
    case isFalse hkept => rw [trimLines_cons, ih, if_neg hkept]

end Text

end AppBundler
