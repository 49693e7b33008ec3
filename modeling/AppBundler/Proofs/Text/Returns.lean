import Mathlib.Data.List.Infix
import AppBundler.Proofs.Text.LineEnds
/-!
# Carriage returns before line feeds

A text may be given carriage returns before its line feeds, and texts may be taken for the same when they differ in
such carriage returns only. Nothing else in the text is touched, so all that stands before a line feed or behind it is
found there again.
-/

namespace AppBundler

namespace Text

/-- The text with a carriage return before every line feed. -/
def withReturns (s : List Char) : List Char := s.flatMap fun c => if c = '\n' then ['\r', '\n'] else [c]

/-- The text without the carriage returns before line feeds. -/
def dropReturns : List Char → List Char
  | [] => []
  | c :: r => if c = '\r' && (dropReturns r).head? = some '\n' then dropReturns r else c :: dropReturns r

/-- The second text is the first one with carriage returns before some of its line feeds. -/
inductive AddsReturns : List Char → List Char → Prop where
  | nil : AddsReturns [] []
  | cons (c : Char) {s t : List Char} : AddsReturns s t → AddsReturns (c :: s) (c :: t)
  | feed {s t : List Char} : AddsReturns s t → AddsReturns ('\n' :: s) ('\r' :: '\n' :: t)

variable {c : Char} {s t u v w : List Char}

theorem addsReturns_withReturns (s : List Char) : AddsReturns s (withReturns s) := by
  induction s with
  | nil => exact .nil
  | cons c s ih =>
    by_cases hc : c = '\n'
    · subst hc
      exact .feed ih
    · have hcons : withReturns (c :: s) = c :: withReturns s := by simp [withReturns, hc]
      rw [hcons]
      exact .cons c ih

namespace AddsReturns

theorem refl (s : List Char) : AddsReturns s s := by
  induction s with
  | nil => exact .nil
  | cons c s ih => exact .cons c ih

theorem append (h : AddsReturns s t) (h' : AddsReturns u v) : AddsReturns (s ++ u) (t ++ v) := by
  induction h with
  | nil => exact h'
  | cons c _ ih => exact .cons c ih
  | feed _ ih => exact .feed ih

theorem length_le (h : AddsReturns s t) : s.length ≤ t.length := by
  induction h with
  | nil => exact Nat.le_refl 0
  | cons c _ ih => exact Nat.succ_le_succ ih
  | feed _ ih => exact Nat.le_succ_of_le (Nat.succ_le_succ ih)

/-- A character other than a line feed stands in both texts. -/
theorem exists_cons (h : AddsReturns (c :: s) t) (hc : c ≠ '\n') : ∃ r, t = c :: r ∧ AddsReturns s r := by
  cases h with
  | cons _ h => exact ⟨_, rfl, h⟩
  | feed h => exact absurd rfl hc

theorem exists_append (h : AddsReturns (w ++ s) t) (hw : '\n' ∉ w) : ∃ r, t = w ++ r ∧ AddsReturns s r := by
  induction w generalizing t with
  | nil => exact ⟨t, rfl, h⟩
  | cons c w ih =>
    obtain ⟨hc, hw⟩ : '\n' ≠ c ∧ '\n' ∉ w := by simpa using hw
    obtain ⟨t, rfl, htail⟩ := h.exists_cons (Ne.symm hc)
    obtain ⟨r, rfl, hrest⟩ := ih htail hw
    exact ⟨r, rfl, hrest⟩

/-- So does one at the end. -/
theorem exists_concat (h : AddsReturns (s ++ [c]) t) (hc : c ≠ '\n') : ∃ r, t = r ++ [c] ∧ AddsReturns s r := by
  induction s generalizing t with
  | nil =>
    obtain ⟨r, rfl, hr⟩ := h.exists_cons hc
    cases hr
    exact ⟨[], rfl, .nil⟩
  | cons d s ih =>
    cases h with
    | cons _ h =>
      obtain ⟨r, rfl, hr⟩ := ih h
      exact ⟨d :: r, rfl, .cons d hr⟩
    | feed h =>
      obtain ⟨r, rfl, hr⟩ := ih h
      exact ⟨'\r' :: '\n' :: r, rfl, .feed hr⟩

theorem eq_of_not_mem (h : AddsReturns s t) (hs : '\n' ∉ s) : t = s := by
  rw [← List.append_nil s] at h
  obtain ⟨r, rfl, hrest⟩ := h.exists_append hs
  cases hrest with
  | nil => exact List.append_nil s

/-- Either the texts are the same, or both have a line feed. -/
theorem eq_or_mem (h : AddsReturns s t) : s = t ∨ '\n' ∈ s ∧ '\n' ∈ t := by
  induction h with
  | nil => exact Or.inl rfl
  | cons c _ ih =>
    rcases ih with rfl | ⟨hs, ht⟩
    · exact Or.inl rfl
    · exact Or.inr ⟨List.mem_cons_of_mem c hs, List.mem_cons_of_mem c ht⟩
  | feed _ _ => exact Or.inr ⟨by simp, by simp⟩

theorem mem_iff (h : AddsReturns s t) : '\n' ∈ t ↔ '\n' ∈ s := by
  rcases h.eq_or_mem with rfl | ⟨hs, ht⟩
  · rfl
  · exact ⟨fun _ => hs, fun _ => ht⟩

/-- What holds of neither character of a line end holds of the first characters of both texts or of none. -/
theorem any_head? (h : AddsReturns s t) {q : Char → Bool} (hfeed : q '\n' = false) (hreturn : q '\r' = false) :
    t.head?.any q = s.head?.any q := by
  cases h with
  | nil => rfl
  | cons c _ => rfl
  | feed _ => simp [hfeed, hreturn]

theorem head?_eq_iff (h : AddsReturns s t) {d : Char} (hfeed : d ≠ '\n') (hreturn : d ≠ '\r') :
    t.head? = some d ↔ s.head? = some d := by
  cases h with
  | nil => rfl
  | cons c _ => rfl
  | feed _ => simp [Ne.symm hfeed, Ne.symm hreturn]

/-- A text without the characters of line ends stands at the front of both texts or of none. -/
theorem isPrefixOf (h : AddsReturns s t) (hfeed : '\n' ∉ w) (hreturn : '\r' ∉ w) : w.isPrefixOf t = w.isPrefixOf s := by
  induction w generalizing s t with
  | nil => simp
  | cons d w ih =>
    obtain ⟨hfeed', hfeed⟩ : '\n' ≠ d ∧ '\n' ∉ w := by simpa using hfeed
    obtain ⟨hreturn', hreturn⟩ : '\r' ≠ d ∧ '\r' ∉ w := by simpa using hreturn
    cases h with
    | nil => rfl
    | cons c h => rw [List.isPrefixOf, List.isPrefixOf, ih h hfeed hreturn]
    | feed h => rw [List.isPrefixOf, List.isPrefixOf, beq_eq_false_iff_ne.mpr (Ne.symm hfeed'),
        beq_eq_false_iff_ne.mpr (Ne.symm hreturn'), Bool.false_and, Bool.false_and]

/-- Such a text stands somewhere in both texts or in none. -/
theorem hasPart (h : AddsReturns s t) (hne : w ≠ []) (hfeed : '\n' ∉ w) (hreturn : '\r' ∉ w) :
    hasPart w t = hasPart w s := by
  obtain ⟨d, w, rfl⟩ := List.exists_cons_of_ne_nil hne
  have hhead : '\n' ≠ d := fun heq => hfeed (heq ▸ List.mem_cons_self)
  have hhead' : '\r' ≠ d := fun heq => hreturn (heq ▸ List.mem_cons_self)
  induction h with
  | nil => rfl
  | @cons c s t h ih =>
    rw [Text.hasPart, Text.hasPart, ih, isSome_dropFront?, isSome_dropFront?,
      (AddsReturns.cons c h).isPrefixOf hfeed hreturn]
  | @feed s t h ih =>
    have hnone : dropFront? (d :: w) ('\r' :: '\n' :: t) = none := by simp [dropFront?, Ne.symm hhead']
    have hnone' : ∀ u, dropFront? (d :: w) ('\n' :: u) = none := by simp [dropFront?, Ne.symm hhead]
    rw [Text.hasPart, hnone, Text.hasPart, hnone', Text.hasPart, hnone', ih]
    rfl

/-- Without the carriage returns before line feeds the texts are the same. -/
theorem dropReturns_eq (h : AddsReturns s t) : dropReturns s = dropReturns t := by
  induction h with
  | nil => rfl
  | cons c _ ih => rw [dropReturns, dropReturns, ih]
  | feed _ ih => simp [dropReturns, ih]

end AddsReturns

theorem dropReturns_of_not_mem (hs : '\n' ∉ s) : dropReturns s = s := by
  induction s with
  | nil => rfl
  | cons c s ih =>
    have hs' : '\n' ∉ s := fun hmem => hs (List.mem_cons_of_mem c hmem)
    have hhead : s.head? ≠ some '\n' := fun hhead => hs' (List.mem_of_mem_head? hhead)
    rw [dropReturns, ih hs', if_neg (by simp [hhead])]

theorem mem_dropReturns : '\n' ∈ dropReturns s ↔ '\n' ∈ s := by
  induction s with
  | nil => rfl
  | cons c s ih =>
    rw [dropReturns]
    split
    case isTrue hreturn =>
      obtain ⟨hc, -⟩ : c = '\r' ∧ _ := by simpa using hreturn
      rw [ih, hc, List.mem_cons, or_iff_right (by decide)]
    case isFalse => rw [List.mem_cons, List.mem_cons, ih]

/-! ## Lines -/

/-- It does not matter which end is trimmed first. -/
theorem trim_eq_trimStart (s : List Char) : trim s = trimStart (trimEnd s) := by
  induction s with
  | nil => rfl
  | cons c s ih =>
    rw [trim, trimEnd_cons]
    cases hc : isBlank c with
    | false =>
      have hstart (r : List Char) : trimStart (c :: r) = c :: r := List.dropWhile_cons_of_neg (by simp [hc])
      rw [hstart, trimEnd_cons, hc, Bool.false_and, if_neg (by decide), hstart]
    | true =>
      have hstart (r : List Char) : trimStart (c :: r) = trimStart r := List.dropWhile_cons_of_pos hc
      rw [hstart, ← trim, ih, Bool.true_and]
      cases trimEnd s with
      | nil => rfl
      | cons d r => exact (hstart (d :: r)).symm

theorem trim_trimEnd (s : List Char) : trim (trimEnd s) = trim s := by
  rw [trim_eq_trimStart, trim_eq_trimStart, trimEnd_trimEnd]

/-- Without the carriage returns before line feeds, the lines are the same once they are trimmed, and the last one is the
same. -/
theorem splitLines_dropReturns (s : List Char) :
    (splitLines (dropReturns s)).map trimEnd = (splitLines s).map trimEnd ∧
      (splitLines (dropReturns s)).getLast? = (splitLines s).getLast? := by
  induction s with
  | nil => exact ⟨rfl, rfl⟩
  | cons c s ih =>
    obtain ⟨l, ls, hs, -⟩ := exists_splitLines_eq_cons s
    obtain ⟨l', ls', hs', -⟩ := exists_splitLines_eq_cons (dropReturns s)
    rw [hs, hs', List.map_cons, List.map_cons, List.cons.injEq] at ih
    obtain ⟨⟨hfirst, hmore⟩, hlast⟩ := ih
    have hlength : ls'.length = ls.length := by simpa using congrArg List.length hmore
    rw [dropReturns]
    split
    case isTrue hreturn =>
      -- the first line ends in carriage returns, which are trimmed, and is not the last one
      simp only [Bool.and_eq_true, decide_eq_true_eq] at hreturn
      obtain ⟨rfl, hhead⟩ := hreturn
      obtain ⟨r, hr⟩ := List.head?_eq_some_iff.mp hhead
      obtain ⟨rfl, hne⟩ : l' = [] ∧ ls' ≠ [] := by
        rw [hr, splitLines, if_pos rfl, List.cons.injEq] at hs'
        obtain ⟨k, ks, hk, -⟩ := exists_splitLines_eq_cons r
        exact ⟨hs'.1.symm, by rw [← hs'.2, hk]; exact List.cons_ne_nil k ks⟩
      have hcons : splitLines ('\r' :: s) = ('\r' :: l) :: ls := by simp [splitLines, hs]
      have htrim : trimEnd ('\r' :: l) = [] := by
        rw [trimEnd_cons, ← hfirst]
        rfl
      obtain ⟨k', ks', rfl⟩ := List.exists_cons_of_ne_nil hne
      obtain ⟨k, ks, rfl⟩ := List.exists_cons_of_length_eq_add_one hlength.symm
      rw [hs', hcons]
      exact ⟨(List.cons_eq_cons.mpr ⟨htrim.symm, hmore⟩ :), by simpa using hlast⟩
    case isFalse =>
      by_cases hc : c = '\n'
      · subst hc
        have hcons (r : List Char) : splitLines ('\n' :: r) = [] :: splitLines r := by rw [splitLines, if_pos rfl]
        rw [hcons, hcons, hs, hs', List.map_cons, List.map_cons, List.map_cons, List.map_cons, hfirst, hmore]
        exact ⟨rfl, by simpa using hlast⟩
      · have hcons : splitLines (c :: s) = (c :: l) :: ls := by simp [splitLines, hc, hs]
        have hcons' : splitLines (c :: dropReturns s) = (c :: l') :: ls' := by simp [splitLines, hc, hs']
        rw [hcons, hcons', List.map_cons, List.map_cons, hmore, trimEnd_cons, trimEnd_cons, hfirst]
        refine ⟨rfl, ?_⟩
        cases ls <;> cases ls' <;> simp_all

/-- What is told of the trimmed lines is told without the carriage returns before line feeds. -/
theorem map_lines_dropReturns {α : Type} {f : List Char → α} (hf : ∀ l, f (trimEnd l) = f l) (s : List Char) :
    (lines (dropReturns s)).map f = (lines s).map f := by
  have hlines (s : List Char) : (lines s).map f = ((splitLines s).map trimEnd).dropLast.map f ++
      ((splitLines s).getLast?.filter fun l => !l.isEmpty).toList.map f := by
    obtain ⟨l, ls, hs, -⟩ := exists_splitLines_eq_cons s
    obtain ⟨front, last, hsplit⟩ : ∃ front last, splitLines s = front ++ [last] :=
      ⟨_, _, (List.dropLast_append_getLast (hs ▸ List.cons_ne_nil l ls)).symm⟩
    have hfront : (front.map dropReturn).map f = (front.map trimEnd).map f := by
      rw [List.map_map, List.map_map]
      refine List.map_congr_left fun l _ => ?_
      rw [Function.comp_apply, Function.comp_apply, ← hf, trimEnd_dropReturn]
    rw [lines, hsplit]
    simp only [List.map_append, List.map_singleton, List.dropLast_concat, List.getLast?_append, List.getLast?_singleton,
      Option.some_or]
    cases last with
    | nil =>
      change (front.map dropReturn).map f = (front.map trimEnd).map f ++ []
      rw [hfront, List.append_nil]
    | cons c last =>
      change (front.map dropReturn ++ [c :: last]).map f = (front.map trimEnd).map f ++ [f (c :: last)]
      rw [List.map_append, hfront, List.map_singleton]
  obtain ⟨hmap, hlast⟩ := splitLines_dropReturns s
  rw [hlines, hlines, hmap, hlast]

end Text

end AppBundler
