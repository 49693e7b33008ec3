import AppBundler.Proofs.Bundle.Description
/-!
# Texts with their placeholders filled

Filling the placeholders of a text goes through it once. It goes on in the same way behind any character that no
placeholder has and no name goes on with, and what it writes is a quoted text, so that the old text and the new one are
the same up to a quote. Blanks and comments stay blanks and comments, unless a value closes a comment.
-/

namespace AppBundler

namespace Placeholder

variable {v : PlaceholderValues} {s t place place' rest rest' text : List Char} {value value' : String} {c : Char}

/-! ## Places -/

/-- No placeholder begins with another one. -/
theorem eq_of_mem_named {a b : Option String} (h : (place, a) ∈ named v) (h' : (place', b) ∈ named v)
    (hfront : place <+: place') : place = place' ∧ a = b := by
  rcases List.mem_pair.mp h with h | h <;> rcases List.mem_pair.mp h' with h' | h'
  all_goals
    obtain ⟨rfl, rfl⟩ := Prod.mk.inj h
    obtain ⟨rfl, rfl⟩ := Prod.mk.inj h'
  · exact ⟨rfl, rfl⟩
  · exact absurd hfront (by decide +kernel)
  · exact absurd hfront (by decide +kernel)
  · exact ⟨rfl, rfl⟩

/-- A placeholder whose setting has a value stands before a text. -/
structure StandsBefore (v : PlaceholderValues) (place : List Char) (value : String) (rest : List Char) : Prop where
  mem : (place, some value) ∈ named v
  ends : endsName rest = true

/-- At most one placeholder stands at the front of a text. -/
theorem StandsBefore.unique (h : StandsBefore v place value rest) (h' : StandsBefore v place' value' rest')
    (heq : place ++ rest = place' ++ rest') : place = place' ∧ value = value' ∧ rest = rest' := by
  have hsame : place = place' ∧ some value = some value' := by
    have hfront : place <+: place' ++ rest' := ⟨rest, heq⟩
    rcases List.prefix_or_prefix_of_prefix hfront (List.prefix_append place' rest') with hle | hle
    · exact eq_of_mem_named h.mem h'.mem hle
    · exact (eq_of_mem_named h'.mem h.mem hle).imp Eq.symm Eq.symm
  obtain ⟨rfl, hvalue⟩ := hsame
  exact ⟨rfl, Option.some.inj hvalue, List.append_cancel_left heq⟩

/-- What is found at the front of a text is a placeholder with a value. -/
theorem exists_of_here? {length : Nat} (h : here? v s = some (text, length)) :
    ∃ place value rest, s = place ++ rest ∧ StandsBefore v place value rest ∧ text = Json.quoted value ∧
      length = place.length := by
  obtain ⟨⟨place, setting⟩, hmem, hfound⟩ := List.exists_of_findSome?_eq_some h
  dsimp only at hfound
  split at hfound
  · rename_i rest hdrop
    split at hfound
    · rename_i hends
      obtain ⟨value, rfl, heq⟩ := Option.map_eq_some_iff.mp hfound
      obtain ⟨rfl, rfl⟩ := Prod.mk.inj heq
      exact ⟨place, value, rest, Text.dropFront?_eq_some_iff.mp hdrop, ⟨hmem, hends⟩, rfl, rfl⟩
    · cases hfound
  · cases hfound

/-- A placeholder with a value is found at the front of a text. -/
theorem StandsBefore.here?_eq (h : StandsBefore v place value rest) :
    here? v (place ++ rest) = some (Json.quoted value, place.length) := by
  cases hfound : here? v (place ++ rest) with
  | some found =>
    obtain ⟨text, length⟩ := found
    obtain ⟨place', value', rest', heq, h', rfl, rfl⟩ := exists_of_here? hfound
    obtain ⟨rfl, rfl, -⟩ := h.unique h' heq
    rfl
  | none =>
    have hnone := List.findSome?_eq_none_iff.mp hfound _ h.mem
    dsimp only at hnone
    rw [Text.dropFront?_eq_some_iff.mpr rfl] at hnone
    simp [h.ends] at hnone

theorem here?_eq_none_iff : here? v s = none ↔ ∀ place value rest, s = place ++ rest → ¬StandsBefore v place value rest := by
  constructor
  · rintro hnone place value rest rfl h
    rw [h.here?_eq] at hnone
    cases hnone
  · intro h
    rw [Option.eq_none_iff_forall_ne_some]
    rintro ⟨text, length⟩ hfound
    obtain ⟨place, value, rest, hs, hstands, -⟩ := exists_of_here? hfound
    exact h place value rest hs hstands

/-! ## Characters of placeholders -/

/-- The characters of a placeholder. -/
theorem isWordChar_of_mem {a : Option String} (h : (place, a) ∈ named v) {d : Char} (hd : d ∈ place) :
    isWordChar d = true ∨ d = '.' := by
  have hall : (place.all fun d => isWordChar d || d = '.') = true := by
    rcases List.mem_pair.mp h with h | h
    all_goals
      obtain ⟨rfl, -⟩ := Prod.mk.inj h
      decide +kernel
  simpa using List.all_eq_true.mp hall d hd

/-- A placeholder begins with its only `p`. -/
theorem exists_cons_of_mem {a : Option String} (h : (place, a) ∈ named v) : ∃ r, place = 'p' :: r ∧ 'p' ∉ r := by
  rcases List.mem_pair.mp h with h | h
  all_goals
    obtain ⟨rfl, -⟩ := Prod.mk.inj h
    exact ⟨_, rfl, by decide +kernel⟩

/-- Text that does not begin with `p` begins with no placeholder. -/
theorem here?_eq_none_of_head? (h : s.head? ≠ some 'p') : here? v s = none := by
  rw [here?_eq_none_iff]
  rintro place value rest rfl hstands
  obtain ⟨r, rfl, -⟩ := exists_cons_of_mem hstands.mem
  exact h rfl

/-- A character that no placeholder has and no name goes on with. -/
structure SetsApart (c : Char) : Prop where
  notWord : isWordChar c = false
  notPoint : c ≠ '.'

theorem SetsApart.not_mem {a : Option String} (hc : SetsApart c) (h : (place, a) ∈ named v) : c ∉ place := by
  intro hmem
  rcases isWordChar_of_mem h hmem with hword | hpoint
  · rw [hc.notWord] at hword
    cases hword
  · exact hc.notPoint hpoint

theorem SetsApart.ne_p (hc : SetsApart c) : c ≠ 'p' := by
  rintro rfl
  exact absurd hc.notWord (by decide +kernel)

theorem SetsApart.endsName (hc : SetsApart c) (s r : List Char) : endsName (s ++ c :: r) = endsName s := by
  cases s with
  | nil => simp [Placeholder.endsName, hc.notWord]
  | cons d s => rfl

/-- Whether a placeholder stands in front does not depend on what is behind such a character. -/
theorem SetsApart.here?_append (hc : SetsApart c) (s r : List Char) : here? v (s ++ c :: r) = here? v s := by
  cases hfound : here? v s with
  | some found =>
    obtain ⟨text, length⟩ := found
    obtain ⟨place, value, rest, rfl, hstands, rfl, rfl⟩ := exists_of_here? hfound
    have hstands' : StandsBefore v place value (rest ++ c :: r) := ⟨hstands.mem, by rw [hc.endsName]; exact hstands.ends⟩
    rw [List.append_assoc, hstands'.here?_eq]
  | none =>
    rw [here?_eq_none_iff] at hfound ⊢
    intro place value rest heq hstands
    -- the placeholder ends before the character
    rcases List.append_eq_append_iff.mp heq with ⟨a, rfl, hrest⟩ | ⟨a, rfl, hrest⟩
    · cases a with
      | nil =>
        rw [List.append_nil] at hstands
        refine hfound s value [] (List.append_nil s).symm ⟨hstands.mem, rfl⟩
      | cons d a =>
        obtain ⟨rfl, -⟩ := List.cons.inj hrest
        exact hc.not_mem hstands.mem (List.mem_append_right _ List.mem_cons_self)
    · rw [hrest] at hstands
      exact hfound place value a rfl ⟨hstands.mem, by rw [← hc.endsName a r]; exact hstands.ends⟩

/-- The code points of blanks above ASCII. -/
def wideBlanks : List (Nat × Nat) :=
  [(0x85, 0x85), (0xA0, 0xA0), (0x1680, 0x1680), (0x2000, 0x200A), (0x2028, 0x2029), (0x202F, 0x202F), (0x205F, 0x205F),
    (0x3000, 0x3000)]

/-- Blanks are no parts of words. -/
theorem setsApart_of_isBlank (h : isBlank c = true) : SetsApart c := by
  constructor
  · have hname := Lexeme.isIdentContinue_of_isBlank h
    simp only [Lexeme.isIdentContinue, isLetterOrNumber, Bool.or_eq_false_iff, Bool.and_eq_false_iff] at hname
    obtain ⟨⟨hlow, -⟩, halnum, hhigh⟩ := hname
    have hextra : 0x80 ≤ c.toNat → inRanges Ranges.wordExtra c.toNat = false := by
      intro hwide
      obtain ⟨b, hb, hspan⟩ : ∃ b ∈ wideBlanks, b.1 ≤ c.toNat ∧ c.toNat ≤ b.2 := by
        simp only [isBlank, Bool.or_eq_true, Bool.and_eq_true, decide_eq_true_eq] at h
        simp only [wideBlanks, List.exists_mem_cons_iff, List.not_mem_nil, false_and, exists_false, or_false]
        omega
      exact Lexeme.not_inRanges_of_mem_spans (by decide +kernel) hb hspan
    by_cases hwide : 0x80 ≤ c.toNat
    · simp_all [isWordChar]
    · simp [isWordChar, halnum, hlow, hwide]
  · rintro rfl
    exact absurd h (by decide)

theorem setsApart_slash : SetsApart '/' := ⟨by decide +kernel, by decide⟩

theorem setsApart_star : SetsApart '*' := ⟨by decide +kernel, by decide⟩

theorem setsApart_feed : SetsApart '\n' := ⟨by decide +kernel, by decide⟩

/-! ## One time through a text -/

theorem replaceFrom_length (place r : List Char) : replaceFrom v place.length (place ++ r) = replaceFrom v 0 r := by
  induction place with
  | nil => rfl
  | cons c place ih => exact ih

/-- A character at which no placeholder stands is kept. -/
theorem replaceFrom_keep (h : here? v (c :: s) = none) : replaceFrom v 0 (c :: s) = c :: replaceFrom v 0 s := by
  simp only [replaceFrom, h]

/-- A placeholder is filled. -/
theorem StandsBefore.replaceFrom_eq (h : StandsBefore v place value s) :
    replaceFrom v 0 (place ++ s) = Json.quoted value ++ replaceFrom v 0 s := by
  have hhere := h.here?_eq
  obtain ⟨r, rfl, -⟩ := exists_cons_of_mem h.mem
  rw [List.cons_append] at hhere ⊢
  simp only [replaceFrom, hhere, List.length_cons, Nat.add_sub_cancel]
  rw [replaceFrom_length]

/-- **Filling goes through a text** from left to right. Behind a placeholder it goes on, and elsewhere it keeps one
character. -/
theorem replaceFrom_induction {motive : List Char → Prop} (nil : motive [])
    (keep : ∀ c s, here? v (c :: s) = none → motive s → motive (c :: s))
    (fill : ∀ place value s, StandsBefore v place value s → motive s → motive (place ++ s)) (s : List Char) : motive s := by
  induction hlength : s.length using Nat.strong_induction_on generalizing s with
  | h n ih =>
    subst hlength
    cases s with
    | nil => exact nil
    | cons c s =>
      cases hhere : here? v (c :: s) with
      | none => exact keep c s hhere (ih s.length (by simp) s rfl)
      | some found =>
        obtain ⟨text, length⟩ := found
        obtain ⟨place, value, rest, hs, hstands, -⟩ := exists_of_here? hhere
        obtain ⟨r, hplace, -⟩ := exists_cons_of_mem hstands.mem
        have hshort : rest.length < (c :: s).length := by
          rw [hs, hplace, List.length_append, List.length_cons]
          omega
        rw [hs]
        exact fill place value rest hstands (ih rest.length hshort rest rfl)

/-- **A text is filled on either side** of a character that sets placeholders apart. -/
theorem SetsApart.replaceFrom_append (hc : SetsApart c) (s r : List Char) :
    replaceFrom v 0 (s ++ c :: r) = replaceFrom v 0 s ++ c :: replaceFrom v 0 r := by
  induction s using replaceFrom_induction (v := v) with
  | nil =>
    have hnone : here? v (c :: r) = none := here?_eq_none_of_head? fun heq => hc.ne_p (Option.some.inj heq)
    rw [List.nil_append, replaceFrom_keep hnone]
    rfl
  | keep d s hnone ih =>
    have hnone' : here? v (d :: (s ++ c :: r)) = none := (hc.here?_append (d :: s) r).trans hnone
    rw [List.cons_append, replaceFrom_keep hnone', replaceFrom_keep hnone, ih, List.cons_append]
  | fill place value s hstands ih =>
    have hstands' : StandsBefore v place value (s ++ c :: r) := ⟨hstands.mem, by rw [hc.endsName]; exact hstands.ends⟩
    rw [List.append_assoc, hstands'.replaceFrom_eq, hstands.replaceFrom_eq, ih, List.append_assoc]

/-- A text and what it is filled to are the same up to the quote of the first value. -/
theorem replaceFrom_eq_or (s : List Char) :
    replaceFrom v 0 s = s ∨ ∃ w u x, s = w ++ u ∧ replaceFrom v 0 s = w ++ '"' :: x := by
  induction s using replaceFrom_induction (v := v) with
  | nil => exact .inl rfl
  | keep c s hnone ih =>
    rw [replaceFrom_keep hnone]
    rcases ih with heq | ⟨w, u, x, rfl, heq⟩
    · exact .inl (by rw [heq])
    · exact .inr ⟨c :: w, u, x, rfl, by rw [heq]; rfl⟩
  | fill place value s hstands ih =>
    rw [hstands.replaceFrom_eq]
    exact .inr ⟨[], _, _, rfl, rfl⟩

/-- What a text is filled to begins like the text, or with a quote. -/
theorem head?_replaceFrom (s : List Char) :
    (replaceFrom v 0 s).head? = s.head? ∨ s.head? = some 'p' ∧ (replaceFrom v 0 s).head? = some '"' := by
  cases s with
  | nil => exact .inl rfl
  | cons c s =>
    cases hhere : here? v (c :: s) with
    | none => exact .inl (by rw [replaceFrom_keep hhere]; rfl)
    | some found =>
      obtain ⟨text, length⟩ := found
      obtain ⟨place, value, rest, hs, hstands, -⟩ := exists_of_here? hhere
      obtain ⟨r, hplace, -⟩ := exists_cons_of_mem hstands.mem
      rw [hs, hstands.replaceFrom_eq, hplace]
      exact .inr ⟨rfl, rfl⟩

/-! ## Text at which no placeholder stands -/

/-- No placeholder stands at a character of a text before another one. -/
def Clear (v : PlaceholderValues) (p r : List Char) : Prop := ∀ a b, p = a ++ b → b ≠ [] → here? v (b ++ r) = none

theorem clear_nil (v : PlaceholderValues) (r : List Char) : Clear v [] r :=
  fun _ _ heq hne => absurd (List.append_eq_nil_iff.mp heq.symm).2 hne

theorem clear_cons_iff {p r : List Char} : Clear v (c :: p) r ↔ here? v (c :: (p ++ r)) = none ∧ Clear v p r := by
  constructor
  · exact fun h => ⟨h [] (c :: p) rfl (List.cons_ne_nil _ _), fun a b hp => h (c :: a) b (congrArg (c :: ·) hp)⟩
  · rintro ⟨hfirst, hrest⟩ a b hp hne
    cases a with
    | nil =>
      rw [← show c :: p = b from hp]
      exact hfirst
    | cons d a => exact hrest a b (List.cons.inj hp).2 hne

/-- Text without `p` is clear. -/
theorem clear_of_not_mem {p : List Char} (h : 'p' ∉ p) (r : List Char) : Clear v p r := by
  rintro a b rfl hne
  obtain ⟨c, b, rfl⟩ := List.exists_cons_of_ne_nil hne
  refine here?_eq_none_of_head? fun hhead => h ?_
  obtain rfl := Option.some.inj hhead
  exact List.mem_append_right _ List.mem_cons_self

/-- **Clear text is kept, and all text that is kept is clear.** -/
theorem clear_iff {p r : List Char} :
    Clear v p r ↔ ∃ x, replaceFrom v 0 (p ++ r) = p ++ x := by
  induction p with
  | nil => exact iff_of_true (clear_nil v r) ⟨_, rfl⟩
  | cons c p ih =>
    rw [clear_cons_iff, ih, List.cons_append]
    constructor
    · rintro ⟨hnone, x, hx⟩
      exact ⟨x, by rw [replaceFrom_keep hnone, hx]; rfl⟩
    · rintro ⟨x, hx⟩
      cases hhere : here? v (c :: (p ++ r)) with
      | none =>
        rw [replaceFrom_keep hhere] at hx
        exact ⟨rfl, x, (List.cons.inj hx).2⟩
      | some found =>
        -- a value would begin with a quote
        obtain ⟨text, length⟩ := found
        obtain ⟨place, value, rest, hs, hstands, -⟩ := exists_of_here? hhere
        obtain ⟨place', rfl, -⟩ := exists_cons_of_mem hstands.mem
        obtain ⟨rfl, -⟩ := List.cons.inj hs
        rw [hs, hstands.replaceFrom_eq] at hx
        exact absurd (List.cons.inj hx).1 (by decide)

theorem Clear.replaceFrom_append {p r : List Char} (h : Clear v p r) :
    replaceFrom v 0 (p ++ r) = p ++ replaceFrom v 0 r := by
  induction p with
  | nil => rfl
  | cons c p ih =>
    obtain ⟨hnone, hrest⟩ := clear_cons_iff.mp h
    rw [List.cons_append, replaceFrom_keep hnone, ih hrest, List.cons_append]

/-! ## Quoted values -/

/-- A part whose first character is not in front of a text is behind the front. -/
theorem infix_of_not_mem {a : Char} {p u w : List Char} (ha : a ∉ u) (h : a :: p <:+: u ++ w) : a :: p <:+: w := by
  induction u with
  | nil => exact h
  | cons b u ih =>
    obtain ⟨hb, hu⟩ := not_or.mp (mt List.mem_cons.mpr ha)
    rcases List.infix_cons_iff.mp h with hfront | h
    · exact absurd (List.cons_prefix_cons.mp hfront).1 hb
    · exact ih hu h

/-- Escaping writes no line feed, and stars and slashes only for themselves. -/
theorem escapeChar_plain (c : Char) : '\n' ∉ Json.escapeChar c ∧ (c ≠ '*' → '*' ∉ Json.escapeChar c) ∧
    ((Json.escapeChar c).head? = some '/' → c = '/') := by
  have hdigit : ∀ n < 16, Json.hexDigit n ≠ '\n' ∧ Json.hexDigit n ≠ '*' := by decide
  by_cases hshort : c ∈ ['"', '\\', '\x08', '\x0c', '\n', '\r', '\t']
  · simp only [List.mem_cons, List.not_mem_nil, or_false] at hshort
    rcases hshort with rfl | rfl | rfl | rfl | rfl | rfl | rfl
    all_goals exact ⟨by decide, fun _ => by decide, by decide⟩
  · simp only [List.mem_cons, List.not_mem_nil, or_false, not_or] at hshort
    obtain ⟨hquote, hback, hbell, hform, hline, hreturn, htab⟩ := hshort
    simp only [Json.escapeChar, hquote, hback, hbell, hform, hline, hreturn, htab, if_false]
    split
    · obtain ⟨hhigh, hhigh'⟩ := hdigit (c.toNat / 16) (by omega)
      obtain ⟨hlow, hlow'⟩ := hdigit (c.toNat % 16) (by omega)
      refine ⟨?_, fun _ => ?_, nofun⟩
      · simp [hhigh.symm, hlow.symm]
      · simp [hhigh'.symm, hlow'.symm]
    · refine ⟨?_, fun hstar => ?_, fun hhead => Option.some.inj hhead⟩
      · exact fun hmem => hline (List.mem_singleton.mp hmem).symm
      · exact fun hmem => hstar (List.mem_singleton.mp hmem).symm

theorem feed_not_mem_quoted (value : String) : '\n' ∉ Json.quoted value := by
  intro hmem
  simp only [Json.quoted, List.mem_cons, List.mem_append, List.not_mem_nil, or_false, List.mem_flatMap] at hmem
  rcases hmem with hmem | ⟨c, -, hmem⟩ | hmem
  · exact absurd hmem (by decide)
  · exact (escapeChar_plain c).1 hmem
  · exact absurd hmem (by decide)

/-- A comment is closed in a text that is escaped only where it is in the text itself. -/
theorem infix_of_infix_escaped {s : List Char} (h : ['*', '/'] <:+: s.flatMap Json.escapeChar) : ['*', '/'] <:+: s := by
  induction s with
  | nil => exact h
  | cons c s ih =>
    rw [List.flatMap_cons] at h
    by_cases hstar : c = '*'
    · subst hstar
      have hescaped : Json.escapeChar '*' = ['*'] := by decide
      rw [hescaped, List.singleton_append] at h
      rcases List.infix_cons_iff.mp h with hfront | h
      · -- the slash behind the star stands for itself
        obtain ⟨r, hr⟩ := (List.cons_prefix_cons.mp hfront).2
        cases s with
        | nil => cases hr
        | cons d s =>
          have hne : Json.escapeChar d ≠ [] := by
            unfold Json.escapeChar
            split_ifs <;> exact List.cons_ne_nil _ _
          obtain ⟨e, u, he⟩ := List.exists_cons_of_ne_nil hne
          rw [List.flatMap_cons, he] at hr
          obtain rfl := (List.cons.inj hr).1
          obtain rfl := (escapeChar_plain d).2.2 (by rw [he]; rfl)
          exact List.infix_cons_iff.mpr (.inl ⟨s, rfl⟩)
      · exact List.infix_cons_iff.mpr (.inr (ih h))
    · exact List.infix_cons_iff.mpr (.inr (ih (infix_of_not_mem ((escapeChar_plain c).2.1 hstar) h)))

/-! ## Gaps -/

/-- No value that closes a comment is put into a text. -/
def ClosesNone (v : PlaceholderValues) (s : List Char) : Prop :=
  ∀ before place value rest, s = before ++ (place ++ rest) → StandsBefore v place value rest →
    ¬ ['*', '/'] <:+: value.toList

/-- Values that close no comment at all do not close one of a text. -/
theorem closesNone_of_values (h : ∀ place value, (place, some value) ∈ named v → ¬ ['*', '/'] <:+: value.toList)
    (s : List Char) : ClosesNone v s :=
  fun _ place value _ _ hstands => h place value hstands.mem

theorem ClosesNone.tail (h : ClosesNone v (c :: s)) : ClosesNone v s :=
  fun before place value rest hs => h (c :: before) place value rest (congrArg (c :: ·) hs)

theorem ClosesNone.right {r : List Char} (h : ClosesNone v (s ++ r)) : ClosesNone v r := by
  intro before place value rest hs
  exact h (s ++ before) place value rest (by rw [hs, List.append_assoc])

theorem ClosesNone.left (hc : SetsApart c) {r : List Char} (h : ClosesNone v (s ++ c :: r)) : ClosesNone v s := by
  intro before place value rest hs hstands
  refine h before place value (rest ++ c :: r) (by simp [hs]) ⟨hstands.mem, ?_⟩
  rw [hc.endsName]
  exact hstands.ends

/-- A text without line feeds has none when it is filled. -/
theorem feed_not_mem_replaceFrom (h : '\n' ∉ s) : '\n' ∉ replaceFrom v 0 s := by
  induction s using replaceFrom_induction (v := v) with
  | nil => exact h
  | keep c s hnone ih =>
    obtain ⟨hc, hs⟩ := not_or.mp (mt List.mem_cons.mpr h)
    rw [replaceFrom_keep hnone]
    exact fun hmem => (List.mem_cons.mp hmem).elim hc (ih hs)
  | fill place value s hstands ih =>
    rw [hstands.replaceFrom_eq]
    intro hmem
    rcases List.mem_append.mp hmem with hmem | hmem
    · exact feed_not_mem_quoted value hmem
    · exact ih (fun hs => h (List.mem_append_right _ hs)) hmem

/-- A text that closes no comment closes none when it is filled. -/
theorem not_infix_replaceFrom (h : ¬ ['*', '/'] <:+: s) (hsafe : ClosesNone v s) :
    ¬ ['*', '/'] <:+: replaceFrom v 0 s := by
  induction s using replaceFrom_induction (v := v) with
  | nil => exact h
  | keep c s hnone ih =>
    obtain ⟨hfront, hs⟩ := not_or.mp (mt List.infix_cons_iff.mpr h)
    rw [replaceFrom_keep hnone]
    intro hinfix
    rcases List.infix_cons_iff.mp hinfix with hfront' | hinfix
    · -- the slash was there before
      obtain ⟨rfl, r, hr⟩ := List.cons_prefix_cons.mp hfront'
      have hhead : (replaceFrom v 0 s).head? = some '/' := by rw [← hr]; rfl
      rcases head?_replaceFrom (v := v) s with heq | ⟨-, heq⟩
      · obtain ⟨u, rfl⟩ := List.head?_eq_some_iff.mp (heq.symm.trans hhead)
        exact hfront ⟨u, rfl⟩
      · exact absurd (Option.some.inj (hhead.symm.trans heq)) (by decide)
    · exact ih hs hsafe.tail hinfix
  | fill place value s hstands ih =>
    have hvalue := hsafe [] place value s rfl hstands
    rw [hstands.replaceFrom_eq]
    intro hinfix
    have hquoted : Json.quoted value ++ replaceFrom v 0 s =
        ('"' :: value.toList.flatMap Json.escapeChar) ++ '"' :: replaceFrom v 0 s := by
      simp [Json.quoted]
    rw [hquoted] at hinfix
    rcases (infix_append_cons_iff (by decide) (by decide)).mp hinfix with hinfix | hinfix
    · rcases List.infix_cons_iff.mp hinfix with hfront | hinfix
      · exact absurd (List.cons_prefix_cons.mp hfront).1 (by decide)
      · exact hvalue (infix_of_infix_escaped hinfix)
    · exact ih (fun hs => h (hs.trans (List.suffix_append _ _).isInfix)) hsafe.right hinfix

/-- A character that no placeholder begins with is kept. -/
theorem replaceFrom_cons (hc : c ≠ 'p') (s : List Char) : replaceFrom v 0 (c :: s) = c :: replaceFrom v 0 s :=
  replaceFrom_keep (here?_eq_none_of_head? fun heq => hc (Option.some.inj heq))

/-- **Blanks and comments stay such** when no value closes a comment in them. -/
theorem exists_isGap_replaceFrom {ends : Bool} {g : List Char} {d : Option (List Char)} (h : IsGap ends g d)
    (hsafe : ClosesNone v g) : ∃ d', IsGap ends (replaceFrom v 0 g) d' := by
  -- a block comment of either kind goes up to its first end
  have hblock {body g : List Char} (hbody : ¬ ['*', '/'] <:+: body)
      (hsafe : ClosesNone v ('/' :: '*' :: (body ++ '*' :: '/' :: g))) (hrest : ∃ d', IsGap ends (replaceFrom v 0 g) d') :
      ∃ d', IsGap ends (replaceFrom v 0 ('/' :: '*' :: (body ++ '*' :: '/' :: g))) d' := by
    obtain ⟨d', hgap⟩ := hrest
    have hfilled : replaceFrom v 0 ('/' :: '*' :: (body ++ '*' :: '/' :: g)) =
        '/' :: '*' :: (replaceFrom v 0 body ++ '*' :: '/' :: replaceFrom v 0 g) := by
      rw [replaceFrom_cons (by decide), replaceFrom_cons (by decide), setsApart_star.replaceFrom_append,
        replaceFrom_cons (by decide)]
    rw [hfilled]
    exact ⟨_, .ofBlock (not_infix_replaceFrom hbody (hsafe.tail.tail.left setsApart_star)) hgap⟩
  induction h with
  | nil => exact ⟨none, .nil⟩
  | @blank c g d hc _ ih =>
    obtain ⟨d', hgap⟩ := ih hsafe.tail
    rw [replaceFrom_cons (setsApart_of_isBlank hc).ne_p]
    exact ⟨d', .blank hc hgap⟩
  | @line body g d hbody _ ih =>
    obtain ⟨d', hgap⟩ := ih (ClosesNone.right (s := '/' :: '/' :: body) hsafe)
    rw [replaceFrom_cons (by decide)] at hgap
    rw [replaceFrom_cons (by decide), replaceFrom_cons (by decide), setsApart_feed.replaceFrom_append]
    exact ⟨d', .line (feed_not_mem_replaceFrom hbody) hgap⟩
  | @lastLine body hbody hends =>
    rw [replaceFrom_cons (by decide), replaceFrom_cons (by decide)]
    exact ⟨none, .lastLine (feed_not_mem_replaceFrom hbody) hends⟩
  | @block body g d hbody _ _ ih =>
    have hrest : ClosesNone v g := ClosesNone.right (s := '/' :: '*' :: (body ++ ['*', '/'])) (by simpa using hsafe)
    exact hblock hbody hsafe (ih hrest)
  | @doc body g d hbody _ _ ih =>
    have hrest : ClosesNone v g := ClosesNone.right (s := '/' :: '*' :: '*' :: (body ++ ['*', '/'])) (by simpa using hsafe)
    exact @hblock ('*' :: body) g hbody hsafe (ih hrest)

/-- What stands between two tokens ends with a character that sets placeholders apart. -/
theorem exists_setsApart_of_isGap {g : List Char} {d : Option (List Char)} (h : IsGap false g d) (hne : g ≠ []) :
    ∃ a c, g = a ++ [c] ∧ SetsApart c := by
  have hcons {front g : List Char} {e : Char} (he : SetsApart e) (ih : g ≠ [] → ∃ a c, g = a ++ [c] ∧ SetsApart c) :
      ∃ a c, front ++ e :: g = a ++ [c] ∧ SetsApart c := by
    by_cases hg : g = []
    · exact ⟨front, e, by rw [hg], he⟩
    · obtain ⟨a, c, rfl, hc⟩ := ih hg
      exact ⟨front ++ e :: a, c, by simp, hc⟩
  induction h with
  | nil => exact absurd rfl hne
  | @blank e g d hc _ ih => exact @hcons [] g _ (setsApart_of_isBlank hc) ih
  | @line body g d _ _ ih =>
    obtain ⟨a, c, ha, hc⟩ := ih (List.cons_ne_nil _ _)
    exact ⟨'/' :: '/' :: (body ++ a), c, by rw [ha]; simp, hc⟩
  | lastLine _ hends => cases hends
  | @block body g d _ _ _ ih =>
    obtain ⟨a, c, ha, hc⟩ := @hcons ('/' :: '*' :: (body ++ ['*'])) g _ setsApart_slash ih
    exact ⟨a, c, by rw [← ha]; simp, hc⟩
  | @doc body g d _ _ _ ih =>
    obtain ⟨a, c, ha, hc⟩ := @hcons ('/' :: '*' :: '*' :: (body ++ ['*'])) g _ setsApart_slash ih
    exact ⟨a, c, by rw [← ha]; simp, hc⟩

end Placeholder

end AppBundler
