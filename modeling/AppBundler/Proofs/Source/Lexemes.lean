import Mathlib.Data.List.Find
import AppBundler.Source.Lexer
import AppBundler.Proofs.Source.Fuel
/-!
# Lexemes before other texts

Some lexemes have no mark at their end: a name, a number, the flags of a regular expression, a punctuator. What
follows them decides where they end, but a semicolon ends them as well as a blank, a line break or a quote does. So what
was read up to some place is read in the same way when one of these characters comes next, and whatever comes after it.
-/

namespace AppBundler

namespace Lexeme

/-- The characters that belong to no longer lexeme. -/
def IsBoundary (c : Char) : Prop := c = ';' ∨ c = '\n' ∨ c = '"' ∨ c = '\''

/-- A number goes on with a letter, a digit, a point or the sign of an exponent. -/
def continuesNumber (hex : Bool) (last c : Char) : Bool :=
  c.isAlphanum || c = '_' || c = '.' || ((c = '+' || c = '-') && !hex && (last = 'e' || last = 'E'))

/-- A character that no lexeme goes on with, unless it has a mark at its end. -/
structure EndsLexeme (c : Char) : Prop where
  name : isIdentContinue c = false
  number : ∀ hex last, continuesNumber hex last c = false
  element : elementFollows [c] = false
  punctuator : ∀ p ∈ punctuators, c ∉ p

theorem IsBoundary.endsLexeme {c : Char} (h : IsBoundary c) : EndsLexeme c := by
  rcases h with rfl | rfl | rfl | rfl
  all_goals exact ⟨by decide +kernel, fun _ _ => rfl, by decide +kernel, by decide +kernel⟩

theorem endsLexeme_space : EndsLexeme ' ' := ⟨by decide +kernel, fun _ _ => rfl, by decide +kernel, by decide +kernel⟩

theorem endsLexeme_brace {c : Char} (h : c = '\x7b' ∨ c = '\x7d') : EndsLexeme c := by
  rcases h with rfl | rfl
  all_goals exact ⟨by decide +kernel, fun _ _ => rfl, by decide +kernel, by decide +kernel⟩

namespace EndsLexeme

variable {c : Char}

theorem isAlphanum (h : EndsLexeme c) : c.isAlphanum = false := by
  have hnumber := h.number true 'e'
  simp only [continuesNumber, Bool.or_eq_false_iff] at hnumber
  exact hnumber.1.1.1

theorem isDigit (h : EndsLexeme c) : c.isDigit = false := by
  have halphanum := h.isAlphanum
  rw [Char.isAlphanum, Bool.or_eq_false_iff] at halphanum
  exact halphanum.2

/-- It is no letter. -/
theorem ne_of_isAlphanum (h : EndsLexeme c) {d : Char} (hd : d.isAlphanum = true) : c ≠ d := by
  rintro rfl
  rw [h.isAlphanum] at hd
  cases hd

/-- It begins no comment behind a slash. -/
theorem opensNoComment (h : EndsLexeme c) : (decide (c = '/') || decide (c = '*')) = false := by
  have hslash : c ≠ '/' := by
    rintro rfl
    exact h.punctuator ['/', '='] (by decide) (by decide)
  have hstar : c ≠ '*' := by
    rintro rfl
    exact h.punctuator ['*', '='] (by decide) (by decide)
  simp [hslash, hstar]

end EndsLexeme

/-- What follows begins with the same character, with one that ends lexemes, or is nothing. -/
def EndsLike (r r' : List Char) : Prop := ∀ b ∈ r'.head?, b ∈ r.head? ∨ EndsLexeme b

namespace EndsLike

variable {r r' : List Char} {q : Char → Bool}

theorem refl (r : List Char) : EndsLike r r := fun _ hb => Or.inl hb

/-- Texts that are alike up to a place where one of them ends lexemes. -/
theorem append {b : Char} (hb : EndsLexeme b) (r u v : List Char) : EndsLike (r ++ u) (r ++ b :: v) := by
  intro d hd
  cases r with
  | nil => exact Or.inr (Option.some.inj hd ▸ hb)
  | cons c r => exact Or.inl hd

/-- What stops before a text stops before all that ends lexemes like it. -/
theorem stops (hr : EndsLike r r') (hq : ∀ b, EndsLexeme b → q b = false) (h : ∀ c ∈ r.head?, q c = false) :
    ∀ c ∈ r'.head?, q c = false := fun c hc => (hr c hc).elim (h c) (hq c)

theorem any_eq_false (hr : EndsLike r r') (hq : ∀ b, EndsLexeme b → q b = false) (h : r.head?.any q = false) :
    r'.head?.any q = false := by
  cases hhead : r'.head? with
  | none => rfl
  | some c =>
    refine hr.stops hq (fun d hd => ?_) c hhead
    rw [Option.mem_def.mp hd] at h
    exact h

/-- No element begins with what ends lexemes. -/
theorem elementFollows_eq_false (hr : EndsLike r r') (h : elementFollows r = false) : elementFollows r' = false := by
  have hfirst (s : List Char) : elementFollows s = s.head?.any fun c => c = '>' || isIdentStart c := by
    cases s <;> rfl
  rw [hfirst] at h ⊢
  exact hr.any_eq_false (fun b hb => hb.element) h

end EndsLike

/-- A run ends before what ends lexemes. -/
theorem takeWhile_endsLike {q : Char → Bool} (hq : ∀ b, EndsLexeme b → q b = false) {s p r r' : List Char}
    (h : takeWhile q s = ⟨p, r⟩) (hr : EndsLike r r') : takeWhile q (p ++ r') = ⟨p, r'⟩ := by
  obtain ⟨-, hin, hout⟩ := takeWhile_eq_iff.mp h
  exact takeWhile_eq_iff.mpr ⟨rfl, hin, hr.stops hq hout⟩

/-- A regular expression ends with its flags. -/
theorem regexRest_endsLike {inClass : Bool} {s p r r' : List Char} (h : regexRest inClass s = .ok ⟨p, r⟩)
    (hr : EndsLike r r') : p ≠ [] ∧ s = p ++ r ∧ regexRest inClass (p ++ r') = .ok ⟨p, r'⟩ := by
  fun_induction regexRest inClass s generalizing p with
  | case1 => cases h
  | case2 => cases h
  | case3 inClass c s ih =>
    obtain ⟨q, hq, rfl⟩ := Scan.precede_eq_ok_iff.mp h
    obtain ⟨-, rfl, hread⟩ := ih hq
    exact ⟨by simp, by simp, by simp [regexRest, hread]⟩
  | case4 => cases h
  | case5 inClass s hescape hlast hbreak ih =>
    obtain ⟨q, hq, rfl⟩ := Scan.precede_eq_ok_iff.mp h
    obtain ⟨-, rfl, hread⟩ := ih hq
    exact ⟨by simp, by simp, by simp [regexRest, hread]⟩
  | case6 inClass s hescape hlast hbreak hopen ih =>
    obtain ⟨q, hq, rfl⟩ := Scan.precede_eq_ok_iff.mp h
    obtain ⟨-, rfl, hread⟩ := ih hq
    exact ⟨by simp, by simp, by simp [regexRest, hread]⟩
  | case7 inClass c s hlast hescape hbreak hopen hclose hend =>
    rw [Bool.and_eq_true, decide_eq_true_eq] at hend
    obtain ⟨rfl, hclass⟩ := hend
    obtain ⟨q, hq, rfl⟩ := Scan.precede_eq_ok_iff.mp h
    have hrun := Except.ok.inj hq
    obtain ⟨rfl, -, -⟩ := takeWhile_eq_iff.mp hrun
    have hrun' := takeWhile_endsLike (fun b hb => hb.name) hrun hr
    exact ⟨by simp, by simp, by simp [regexRest, hclass, hrun']⟩
  | case8 inClass c s hlast hescape hbreak hopen hclose hend ih =>
    obtain ⟨q, hq, rfl⟩ := Scan.precede_eq_ok_iff.mp h
    obtain ⟨hne, rfl, hread⟩ := ih hq
    obtain ⟨d, q, rfl⟩ := List.exists_cons_of_ne_nil hne
    have hplain : c ≠ '\\' := fun hplain => hescape d (q ++ r) hplain rfl
    refine ⟨by simp, by simp, ?_⟩
    rw [List.cons_append, List.nil_append, List.cons_append, regexRest, if_neg hbreak, if_neg hopen, if_neg hclose,
      if_neg hend, hread, Scan.precede_ok]
    · rfl
    · exact fun hback => absurd hback hplain
    · exact fun _ _ hback => absurd hback hplain

theorem numberRest_cons (hex : Bool) (last c : Char) (s : List Char) : numberRest hex last (c :: s) =
    if continuesNumber hex last c then ⟨c :: (numberRest hex c s).text, (numberRest hex c s).rest⟩ else ⟨[], c :: s⟩ := rfl

/-- A number ends before a character that it does not go on with. -/
theorem numberRest_of_not {hex : Bool} {last : Char} {r : List Char}
    (h : ∀ c ∈ r.head?, continuesNumber hex last c = false) : numberRest hex last r = ⟨[], r⟩ := by
  cases r with
  | nil => rfl
  | cons c r =>
    rw [numberRest_cons, h c rfl]
    rfl

/-- A number ends before what ends lexemes, as before the character that ended it. -/
theorem numberRest_endsLike {hex : Bool} {last : Char} {s p r r' : List Char}
    (h : numberRest hex last s = ⟨p, r⟩) (hr : EndsLike r r') :
    s = p ++ r ∧ numberRest hex last (p ++ r') = ⟨p, r'⟩ := by
  induction s generalizing last p with
  | nil =>
    obtain ⟨rfl, rfl⟩ := Split.mk.inj h
    exact ⟨rfl, numberRest_of_not (hr.stops (fun b hb => hb.number hex last) (by simp))⟩
  | cons c s ih =>
    by_cases hc : continuesNumber hex last c = true
    · rw [numberRest_cons, if_pos hc] at h
      obtain ⟨rfl, hrest⟩ := Split.mk.inj h
      obtain ⟨heq, hread⟩ := ih (p := (numberRest hex c s).text) (by rw [← hrest])
      exact ⟨by rw [List.cons_append, ← heq], by rw [List.cons_append, numberRest_cons, if_pos hc, hread]⟩
    · have hstop : ∀ d ∈ (c :: s).head?, continuesNumber hex last d = false := by
        intro d hd
        rw [← Option.some.inj hd, ← Bool.not_eq_true]
        exact hc
      rw [numberRest_of_not hstop] at h
      obtain ⟨rfl, rfl⟩ := Split.mk.inj h
      exact ⟨rfl, numberRest_of_not (hr.stops (fun b hb => hb.number hex last) hstop)⟩

/-- A number goes on with a letter or digit. -/
theorem numberRest_ne_nil {hex : Bool} {last d : Char} {s p r : List Char} (h : numberRest hex last s = ⟨p, r⟩)
    (hd : d ∈ s.head?) (halphanum : d.isAlphanum = true) : p ≠ [] := by
  rintro rfl
  obtain ⟨s, rfl⟩ := List.head?_eq_some_iff.mp hd
  rw [numberRest, halphanum] at h
  cases (Split.mk.inj h).1

/-- A front without a character is found before it or not at all. -/
theorem isPrefixOf_before {p w u : List Char} {a : Char} (ha : a ∉ p) :
    p.isPrefixOf (w ++ a :: u) = p.isPrefixOf w := by
  induction p generalizing w with
  | nil => simp
  | cons c p ih =>
    rw [List.mem_cons, not_or] at ha
    cases w with
    | nil => simp [List.isPrefixOf, Ne.symm ha.1]
    | cons d w => simp [List.isPrefixOf, ih ha.2]

/-- A punctuator is the beginning of its text. -/
theorem punctuator_append (s : List Char) : (punctuator s).text ++ (punctuator s).rest = s := by
  unfold punctuator
  split
  case h_1 p hp =>
    have hfront : p.isPrefixOf s = true := by simpa using List.find?_some hp
    obtain ⟨r, rfl⟩ := List.isPrefixOf_iff_prefix.mp hfront
    simp
  case h_2 => exact List.take_append_drop 1 s

/-- A punctuator has a character at least. -/
theorem punctuator_ne_nil {s : List Char} (hs : s ≠ []) : (punctuator s).text ≠ [] := by
  unfold punctuator
  split
  case h_1 p hp =>
    have hall : (punctuators.all fun p => p ≠ []) = true := by decide +kernel
    exact of_decide_eq_true (List.all_eq_true.mp hall p (List.mem_of_find?_eq_some hp))
  case h_2 => simpa using hs

/-- A punctuator is read again before what ends lexemes. -/
theorem punctuator_before {b : Char} (hb : EndsLexeme b) {p r u : List Char} (hp : p ≠ [])
    (h : punctuator (p ++ (r ++ u)) = ⟨p, r ++ u⟩) (v : List Char) :
    punctuator (p ++ (r ++ b :: v)) = ⟨p, r ++ b :: v⟩ := by
  -- what is found before the character was found before any other text too
  have hfront : ∀ front ∈ punctuators, front.isPrefixOf (p ++ (r ++ b :: v)) = true →
      front.isPrefixOf (p ++ (r ++ u)) = true := by
    intro front hmem hfront
    rw [← List.append_assoc, isPrefixOf_before (hb.punctuator front hmem)] at hfront
    rw [← List.append_assoc]
    exact List.isPrefixOf_iff_prefix.mpr ((List.isPrefixOf_iff_prefix.mp hfront).trans (List.prefix_append _ _))
  unfold punctuator at h ⊢
  split at h
  case h_1 front hfound =>
    obtain ⟨rfl, -⟩ := Split.mk.inj h
    obtain ⟨-, before, behind, heq, hnone⟩ := List.find?_eq_some_iff_append.mp hfound
    have hfound' : punctuators.find? (fun front' => front'.isPrefixOf (front ++ (r ++ b :: v))) = some front := by
      refine List.find?_eq_some_iff_append.mpr ⟨by simp, before, behind, heq, fun front' hmem => ?_⟩
      have hnot := hnone front' hmem
      rw [Bool.not_eq_true'] at hnot ⊢
      have hin : front' ∈ punctuators := by
        rw [heq]
        exact List.mem_append_left _ hmem
      exact Bool.eq_false_iff.mpr fun hyes => Bool.eq_false_iff.mp hnot (hfront front' hin hyes)
    rw [hfound']
    simp
  case h_2 hnone =>
    have hnone' : punctuators.find? (fun front => front.isPrefixOf (p ++ (r ++ b :: v))) = none :=
      List.find?_eq_none.mpr fun front hmem hyes => List.find?_eq_none.mp hnone front hmem (hfront front hmem hyes)
    obtain ⟨htake, -⟩ := Split.mk.inj h
    obtain ⟨c, q, rfl⟩ := List.exists_cons_of_ne_nil hp
    obtain rfl : q = [] := by simpa using (List.cons.inj htake).2.symm
    rw [hnone']
    simp

end Lexeme

namespace Lexer

open Lexeme

/-- A lexeme whose scanner begins after the first character. -/
theorem tagged_eq_ok_iff {kind kind' : TokenKind} {c : Char} {scan : Scan} {p r : List Char} :
    ((scan.precede [c]).map fun split => (kind, split)) = .ok (kind', ⟨p, r⟩) ↔
      kind = kind' ∧ ∃ q, scan = .ok ⟨q, r⟩ ∧ p = c :: q := by
  cases scan with
  | error f => simp [Scan.precede, Except.map]
  | ok split =>
    obtain ⟨q, r'⟩ := split
    simp only [Scan.precede_ok, Except.map, Except.ok.injEq, Prod.mk.injEq, Split.mk.injEq, List.singleton_append]
    constructor
    · rintro ⟨rfl, rfl, rfl⟩
      exact ⟨rfl, q, ⟨rfl, rfl⟩, rfl⟩
    · rintro ⟨rfl, q', ⟨rfl, rfl⟩, rfl⟩
      exact ⟨rfl, rfl, rfl⟩

/-- A number after its first character. -/
theorem number_cons (c : Char) (t : List Char) :
    number (c :: t) = ⟨c :: (numberRest (c = '0' && (t.head?.any (· = 'x') || t.head?.any (· = 'X'))) c t).text,
      (numberRest (c = '0' && (t.head?.any (· = 'x') || t.head?.any (· = 'X'))) c t).rest⟩ := by
  cases t with
  | nil => rfl
  | cons d t => simp [number]

/-- **What was read as a lexeme** is read as one before a character that ends lexemes. -/
theorem lexeme_before {jsx operand : Bool} {b : Char} (hb : EndsLexeme b) {kind : TokenKind} {p r u : List Char}
    (hp : p ≠ []) (h : lexeme jsx operand (p ++ (r ++ u)) = .ok (kind, ⟨p, r ++ u⟩)) (v : List Char) :
    lexeme jsx operand (p ++ (r ++ b :: v)) = .ok (kind, ⟨p, r ++ b :: v⟩) := by
  obtain ⟨c, q, rfl⟩ := List.exists_cons_of_ne_nil hp
  have hlike : EndsLike (q ++ (r ++ u)) (q ++ (r ++ b :: v)) := by
    rw [← List.append_assoc, ← List.append_assoc]
    exact .append hb _ _ _
  have hfuel : 2 * q.length + 1 ≤ 2 * (c :: (q ++ (r ++ b :: v))).length + 2 := by
    simp only [List.length_cons, List.length_append]
    omega
  have hlevel := levelReadsAs jsx (Nat.le_refl (2 * (c :: (q ++ (r ++ b :: v))).length + 2))
  have hsuffices := levelSuffices jsx (2 * (c :: (q ++ (r ++ u))).length + 2)
  rw [List.cons_append] at h ⊢
  unfold lexeme at h ⊢
  dsimp only at h ⊢
  split at h
  case isTrue hquote =>
    obtain ⟨rfl, q', hq, heq⟩ := tagged_eq_ok_iff.mp h
    obtain rfl : q = q' := (List.cons.inj heq).2
    have hplain : c ≠ '\\' := by
      rintro rfl
      simp at hquote
    rw [if_pos hquote, (stringRest_readsAs hplain hq).2.2]
    rfl
  case isFalse hquote =>
  rw [if_neg hquote]
  split at h
  case isTrue htick =>
    obtain ⟨rfl, q', hq, heq⟩ := tagged_eq_ok_iff.mp h
    obtain rfl : q = q' := (List.cons.inj heq).2
    -- less text is read with less fuel
    have hq := hsuffices.template (Nat.le_of_succ_le hfuel) hq (Nat.le_refl _)
    rw [if_pos htick, (hlevel.template hq).2.2]
    rfl
  case isFalse htick =>
  rw [if_neg htick]
  split at h
  case isTrue hnumber =>
    obtain ⟨rfl, hnum⟩ := Prod.mk.inj (Except.ok.inj h)
    rw [number_cons] at hnum
    obtain ⟨htext, hrest⟩ := Split.mk.inj hnum
    have hread := congrArg₂ Split.mk (List.cons.inj htext).2 hrest
    -- a letter or digit that comes next belongs to the number
    have hany : ∀ f : Char → Bool, (∀ d, f d = true → d.isAlphanum = true) →
        (q ++ (r ++ b :: v)).head?.any f = (q ++ (r ++ u)).head?.any f := by
      intro f hf
      cases hfirst : (q ++ (r ++ u)).head?.any f with
      | false =>
        refine hlike.any_eq_false (fun d hd => Bool.eq_false_iff.mpr fun hyes => ?_) hfirst
        exact hd.ne_of_isAlphanum (hf d hyes) rfl
      | true =>
        obtain ⟨d, hd, hyes⟩ := (Option.any_eq_true _ _).mp hfirst
        have hne := numberRest_ne_nil hread hd (hf d hyes)
        rw [List.head?_append_of_ne_nil _ hne] at hfirst ⊢
        exact hfirst
    rw [hany Char.isDigit fun d hd => by simp [Char.isAlphanum, hd], if_pos hnumber, number_cons,
      hany (· = 'x') (by simp), hany (· = 'X') (by simp), (numberRest_endsLike hread (.append hb r u v)).2]
  case isFalse hnumber =>
  have hnumber' : ¬ (c.isDigit || (c = '.' && (q ++ (r ++ b :: v)).head?.any Char.isDigit)) = true := by
    intro hyes
    simp only [Bool.or_eq_true, Bool.and_eq_true, not_or, not_and] at hnumber hyes
    obtain hdigit | ⟨hpoint, hnext⟩ := hyes
    · exact hnumber.1 hdigit
    · have hnone := hlike.any_eq_false (fun d hd => hd.isDigit) (Bool.eq_false_iff.mpr (hnumber.2 hpoint))
      rw [hnone] at hnext
      cases hnext
  rw [if_neg hnumber']
  split at h
  case isTrue hident =>
    obtain ⟨rfl, q', hq, heq⟩ := tagged_eq_ok_iff.mp h
    obtain rfl : q = q' := (List.cons.inj heq).2
    rw [if_pos hident, takeWhile_endsLike (fun d hd => hd.name) (Except.ok.inj hq) (.append hb r u v)]
    rfl
  case isFalse hident =>
  rw [if_neg hident]
  split at h
  case isTrue hregex =>
    obtain ⟨rfl, q', hq, heq⟩ := tagged_eq_ok_iff.mp h
    obtain rfl : q = q' := (List.cons.inj heq).2
    rw [if_pos hregex, (regexRest_endsLike hq (.append hb r u v)).2.2]
    rfl
  case isFalse hregex =>
  rw [if_neg hregex]
  split at h
  case isTrue helement =>
    obtain ⟨rfl, q', hq, heq⟩ := tagged_eq_ok_iff.mp h
    obtain rfl : q = q' := (List.cons.inj heq).2
    have hq := hsuffices.element hfuel hq (Nat.le_refl _)
    obtain ⟨hne, -, hread⟩ := hlevel.element hq
    rw [elementFollows_append hne _ (r ++ b :: v)] at helement
    rw [if_pos helement, hread]
    rfl
  case isFalse helement =>
    obtain ⟨rfl, hpunct⟩ := Prod.mk.inj (Except.ok.inj h)
    have helement' : ¬ (c = '<' && jsx && operand && elementFollows (q ++ (r ++ b :: v))) = true := by
      intro hyes
      simp only [Bool.and_eq_true, not_and] at helement hyes
      have hnone := hlike.elementFollows_eq_false (Bool.eq_false_iff.mpr (helement hyes.1))
      rw [hnone] at hyes
      cases hyes.2
    rw [if_neg helement', ← List.cons_append, punctuator_before hb (by simp) hpunct]

end Lexer

end AppBundler
