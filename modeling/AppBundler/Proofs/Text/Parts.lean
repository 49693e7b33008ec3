import Mathlib.Data.List.DropRight
import AppBundler.Text.Blank
/-!
# Texts that are taken apart

What stands between the occurrences of a character and on both sides of the first one, what follows a front and what
precedes a back, and what is left of a text without the characters of one kind at its two ends: each is told from the text
alone, and it is what is found.
-/

namespace AppBundler

namespace Text

variable {p : Char → Bool} {sep : Char} {s t r front back before behind : List Char}

/-! ## Pieces of a text -/

/-- Taking a text apart at a character is the library's splitting. -/
theorem splitAtChar_eq_splitOn (sep : Char) (s : List Char) : splitAtChar sep s = s.splitOn sep := by
  induction s with
  | nil => rfl
  | cons c r ih =>
    rw [splitAtChar, List.splitOn_cons_eq_if_modifyHead, ih]
    by_cases hc : c = sep
    · simp [hc]
    · obtain ⟨l, ls, hl⟩ := List.exists_cons_of_ne_nil (List.splitOn_ne_nil sep r)
      simp [hc, hl]

/-- A text taken apart at one of the places where it is separated. -/
theorem splitAtChar_append (sep : Char) (s t : List Char) :
    splitAtChar sep (s ++ sep :: t) = splitAtChar sep s ++ splitAtChar sep t := by
  induction s with
  | nil => simp [splitAtChar]
  | cons c s ih =>
    rw [List.cons_append, splitAtChar, splitAtChar, ih]
    by_cases hc : c = sep
    · simp [hc]
    · obtain ⟨l, ls, hl⟩ : ∃ l ls, splitAtChar sep s = l :: ls := by
        rw [splitAtChar_eq_splitOn]
        exact List.exists_cons_of_ne_nil (List.splitOn_ne_nil sep s)
      simp [hc, hl]

/-- A piece of a text is made of characters of the text other than the one it was taken apart at. -/
theorem of_mem_splitOn {sep : Char} {s piece : List Char} (h : piece ∈ s.splitOn sep) :
    sep ∉ piece ∧ piece ⊆ s := by
  induction s generalizing piece with
  | nil =>
    obtain rfl : piece = [] := by simpa using h
    simp
  | cons c r ih =>
    rw [List.splitOn_cons_eq_if_modifyHead] at h
    obtain ⟨l, ls, hl⟩ := List.exists_cons_of_ne_nil (List.splitOn_ne_nil sep r)
    by_cases hc : c = sep
    · rcases (by simpa [hc] using h : piece = [] ∨ piece ∈ r.splitOn sep) with rfl | h
      · simp
      · exact ⟨(ih h).1, List.subset_cons_of_subset _ (ih h).2⟩
    · rw [hl] at ih h
      rcases (by simpa [hc] using h : piece = c :: l ∨ piece ∈ ls) with rfl | h
      · obtain ⟨hsep, hsub⟩ := ih List.mem_cons_self
        exact ⟨by simp [hsep, Ne.symm hc], List.cons_subset_cons _ hsub⟩
      · obtain ⟨hsep, hsub⟩ := ih (List.mem_cons_of_mem _ h)
        exact ⟨hsep, List.subset_cons_of_subset _ hsub⟩

/-- A character of joined pieces is one of theirs or the one between them. -/
theorem mem_intercalate {sep c : Char} {ls : List (List Char)} (h : c ∈ List.intercalate [sep] ls) :
    c = sep ∨ ∃ l ∈ ls, c ∈ l := by
  induction ls with
  | nil => simp at h
  | cons l r ih =>
    cases r with
    | nil => exact Or.inr ⟨l, List.mem_cons_self, by simpa using h⟩
    | cons k r =>
      rw [List.intercalate_cons_cons] at h
      rcases (by simpa using h : c ∈ l ∨ c = sep ∨ c ∈ List.intercalate [sep] (k :: r)) with h | h | h
      · exact Or.inr ⟨l, List.mem_cons_self, h⟩
      · exact Or.inl h
      · exact (ih h).imp_right fun ⟨m, hm, hc⟩ => ⟨m, List.mem_cons_of_mem _ hm, hc⟩

/-- What ends a text without the character that it is taken apart at ends its last piece. -/
theorem exists_splitOn_append {sep : Char} {ending : List Char} (hsep : sep ∉ ending) (s : List Char) :
    ∃ before last, (s ++ ending).splitOn sep = before ++ [last ++ ending] := by
  induction s with
  | nil => exact ⟨[], [], List.splitOn_eq_singleton hsep⟩
  | cons c s ih =>
    obtain ⟨before, last, hsplit⟩ := ih
    rw [List.cons_append, List.splitOn_cons_eq_if_modifyHead, hsplit]
    by_cases hc : c = sep
    · exact ⟨[] :: before, last, by simp [hc]⟩
    · cases before with
      | nil => exact ⟨[], c :: last, by simp [hc]⟩
      | cons first before => exact ⟨(c :: first) :: before, last, by simp [hc]⟩

/-- What some pieces are joined to ends with the last one. -/
theorem exists_intercalate_append (sep last : List Char) (before : List (List Char)) :
    ∃ front, List.intercalate sep (before ++ [last]) = front ++ last := by
  induction before with
  | nil => exact ⟨[], by simp⟩
  | cons first before ih =>
    obtain ⟨front, hfront⟩ := ih
    have hne : before ++ [last] ≠ [] := by simp
    refine ⟨first ++ sep ++ front, ?_⟩
    rw [List.cons_append, List.intercalate_cons_of_ne_nil hne, hfront]
    simp

/-! ## Fronts and backs of texts -/

/-- What follows a front. -/
theorem dropFront?_eq_some_iff : dropFront? front s = some r ↔ s = front ++ r := by
  induction front generalizing s with
  | nil => simp [dropFront?]
  | cons p ps ih =>
    cases s with
    | nil => simp [dropFront?]
    | cons c s =>
      by_cases hc : p = c
      · simp [dropFront?, hc, ih]
      · simp [dropFront?, hc, Ne.symm hc]

/-- What precedes a back. -/
theorem dropBack?_eq_some_iff : dropBack? back s = some r ↔ s = r ++ back := by
  simp only [dropBack?, Option.map_eq_some_iff, dropFront?_eq_some_iff]
  constructor
  · rintro ⟨t, ht, rfl⟩
    rw [← List.reverse_inj, ht]
    simp
  · rintro rfl
    exact ⟨r.reverse, by simp, by simp⟩

/-! ## The first occurrence of a character -/

/-- **A text is split where a character stands for the first time.** -/
theorem splitOnce?_eq_some_iff :
    splitOnce? sep s = some (before, behind) ↔ s = before ++ sep :: behind ∧ sep ∉ before := by
  induction s generalizing before with
  | nil => simp [splitOnce?]
  | cons c s ih =>
    rw [splitOnce?]
    by_cases hc : c = sep
    · subst hc
      rw [if_pos rfl, Option.some.injEq, Prod.mk.injEq]
      constructor
      · rintro ⟨rfl, rfl⟩
        exact ⟨rfl, List.not_mem_nil⟩
      · rintro ⟨heq, hmem⟩
        -- otherwise the character would stand at the front of what precedes it
        cases before with
        | nil => exact ⟨rfl, (List.cons.inj heq).2⟩
        | cons d before => exact absurd ((List.cons.inj heq).1 ▸ List.mem_cons_self) hmem
    · rw [if_neg hc]
      constructor
      · intro h
        obtain ⟨⟨front, rest⟩, hsplit, heq⟩ := Option.map_eq_some_iff.mp h
        obtain ⟨rfl, rfl⟩ := Prod.mk.inj heq
        obtain ⟨rfl, hmem⟩ := ih.mp hsplit
        exact ⟨rfl, List.not_mem_cons_of_ne_of_not_mem (Ne.symm hc) hmem⟩
      · rintro ⟨heq, hmem⟩
        cases before with
        | nil => exact absurd (List.cons.inj heq).1 hc
        | cons d before =>
          obtain ⟨rfl, hs⟩ := List.cons.inj heq
          rw [ih.mpr ⟨hs, fun h => hmem (List.mem_cons_of_mem _ h)⟩]
          rfl

/-! ## Between the ends -/

/-- The second text is what is left of the first one without the characters of one kind at both ends. -/
structure IsStripped (p : Char → Bool) (s t : List Char) : Prop where
  exists_ends : ∃ front back, s = front ++ (t ++ back) ∧ (∀ c ∈ front, p c = true) ∧ ∀ c ∈ back, p c = true
  head : ∀ c ∈ t.head?, p c = false
  last : ∀ c ∈ t.getLast?, p c = false

/-- Characters of the kind at the end are dropped with those before them. -/
theorem rdropWhile_append_of_pos {back : List Char} (h : ∀ c ∈ back, p c = true) (t : List Char) :
    (t ++ back).rdropWhile p = t.rdropWhile p := by
  rw [List.rdropWhile, List.reverse_append, List.dropWhile_append_of_pos fun c hc => h c (List.mem_reverse.mp hc)]
  rfl

/-- What is left when both ends are dropped. -/
theorem isStripped_rdropWhile (p : Char → Bool) (s : List Char) : IsStripped p s ((s.dropWhile p).rdropWhile p) where
  exists_ends := by
    refine ⟨s.takeWhile p, (s.dropWhile p).rtakeWhile p, ?_, ?_, ?_⟩
    · rw [List.rdropWhile_append_rtakeWhile, List.takeWhile_append_dropWhile]
    · intro c hc
      exact List.mem_takeWhile_imp hc
    · intro c hc
      exact List.mem_rtakeWhile_imp hc
  head := by
    intro c hc
    -- what is left begins as it did before its end was dropped
    obtain ⟨back, hback⟩ := List.rdropWhile_prefix p (s.dropWhile p)
    have hfront : (s.dropWhile p).head? = some c := by
      rw [← hback, List.head?_append, Option.mem_def.mp hc]
      rfl
    have hnot := List.head?_dropWhile_not p s
    rw [hfront] at hnot
    exact hnot
  last := by
    intro c hc
    obtain ⟨hne, rfl⟩ := List.mem_getLast?_eq_getLast hc
    exact Bool.eq_false_iff.mpr (List.rdropWhile_last_not p _ hne)

/-- **What is left is found** by dropping the characters at the front and then those at the end. -/
theorem isStripped_iff : IsStripped p s t ↔ (s.dropWhile p).rdropWhile p = t := by
  constructor
  · intro h
    obtain ⟨front, back, rfl, hfront, hback⟩ := h.exists_ends
    rw [List.dropWhile_append_of_pos hfront]
    cases t with
    | nil =>
      rw [List.nil_append, List.dropWhile_eq_nil_iff.mpr hback]
      rfl
    | cons c t =>
      have hc : p c = false := h.head c rfl
      rw [List.cons_append, List.dropWhile_cons_of_neg (by simp [hc]), ← List.cons_append,
        rdropWhile_append_of_pos hback]
      refine List.rdropWhile_eq_self_iff.mpr fun hne => ?_
      exact Bool.eq_false_iff.mp (h.last _ (List.getLast_mem_getLast? hne))
  · rintro rfl
    exact isStripped_rdropWhile p s

/-- What is left of a text without the blanks at both ends. -/
theorem trim_eq_iff : trim s = t ↔ IsStripped isBlank s t := isStripped_iff.symm

end Text

end AppBundler
