import AppBundler.Proofs.Source.Words
/-!
# Embedded expressions and their tokens

The expression between the braces of a template literal is passed over without being read as tokens: strings, templates,
comments and braces are told apart by their first characters alone. What is passed over is said once, by `Skips`, and
compared with the tokens of the same text. The two readings agree but for regular expressions, which the first one does
not know.
-/

namespace AppBundler

open Lexeme Lexer

namespace Lexeme

variable {inner : Nat} {c q : Char} {s t u r : List Char}

/-! ## What is passed over -/

/-- The characters that open or close something inside an embedded expression. -/
def embeddedMarks : List Char := ['\x7b', '\x7d', '"', '\'', '\x60']

/-- From a text on, with `inner` more braces open, an embedded expression without elements goes up to a rest. -/
inductive Skips : (inner : Nat) → (s rest : List Char) → Prop where
  /-- The brace that closes the expression. -/
  | close (r : List Char) : Skips 0 ('\x7d' :: r) r
  | openBrace {inner : Nat} {s r : List Char} (h : Skips (inner + 1) s r) : Skips inner ('\x7b' :: s) r
  | closeBrace {inner : Nat} {s r : List Char} (h : Skips inner s r) : Skips (inner + 1) ('\x7d' :: s) r
  | string {inner : Nat} {q : Char} {t s r : List Char} (hq : IsQuote q) (ht : stringRest q (t ++ s) = .ok ⟨t, s⟩)
    (h : Skips inner s r) : Skips inner (q :: (t ++ s)) r
  | template {inner n : Nat} {t s r : List Char} (ht : templateRest false n (t ++ s) = .ok ⟨t, s⟩)
    (h : Skips inner s r) : Skips inner ('\x60' :: (t ++ s)) r
  /-- A line comment goes up to the end of its line. -/
  | line {inner : Nat} {t s r : List Char} (ht : '\n' ∉ t) (hs : s.head? = some '\n') (h : Skips inner s r) :
    Skips inner ('/' :: '/' :: (t ++ s)) r
  | block {inner : Nat} {t s r : List Char} (ht : commentRest (t ++ s) = .ok ⟨t, s⟩) (h : Skips inner s r) :
    Skips inner ('/' :: '*' :: (t ++ s)) r
  | char {inner : Nat} {c : Char} {s r : List Char} (hc : c ∉ embeddedMarks)
    (hslash : c = '/' → s.head?.any (fun d => d = '/' || d = '*') = false) (h : Skips inner s r) : Skips inner (c :: s) r

/-- Something is passed over, the closing brace at least. -/
theorem Skips.ne_nil (h : Skips inner s r) : s ≠ [] := by
  cases h <;> simp

/-- Two quotes begin a string. -/
theorem isQuote_iff : IsQuote c ↔ (decide (c = '"') || decide (c = '\'')) = true := by
  simp [IsQuote]

/-- **What is read as an embedded expression is passed over.** -/
theorem skips_of_embeddedRest {n : Nat} {last : Char} {p : List Char}
    (h : embeddedRest false n inner last s = .ok ⟨p, r⟩) : Skips inner s r := by
  induction n generalizing inner last s p with
  | zero => cases h
  | succ n ih =>
  cases s with
  | nil => cases h
  | cons c s =>
  unfold embeddedRest at h
  split at h
  case isTrue hopen =>
    obtain ⟨p, hp, rfl⟩ := Scan.precede_eq_ok_iff.mp h
    exact hopen ▸ .openBrace (ih hp)
  split at h
  case isTrue hclose =>
    subst hclose
    cases inner with
    | zero =>
      cases h
      exact .close _
    | succ inner =>
      obtain ⟨p, hp, rfl⟩ := Scan.precede_eq_ok_iff.mp h
      exact .closeBrace (ih hp)
  split at h
  case isTrue hquote =>
    have hq := isQuote_iff.mpr hquote
    obtain ⟨p, hp, rfl⟩ := Scan.precede_eq_ok_iff.mp h
    obtain ⟨t, p, rest, ht, hrest, rfl⟩ := Scan.andThen_eq_ok_iff.mp hp
    obtain ⟨-, rfl, -⟩ := stringRest_readsAs hq.ne_backslash ht
    exact .string hq ht (ih hrest)
  split at h
  case isTrue htick =>
    obtain ⟨p, hp, rfl⟩ := Scan.precede_eq_ok_iff.mp h
    obtain ⟨t, p, rest, ht, hrest, rfl⟩ := Scan.andThen_eq_ok_iff.mp hp
    obtain ⟨-, rfl, -⟩ := (levelReadsAs false (Nat.le_refl n)).template ht
    exact htick ▸ .template ht (ih hrest)
  split at h
  case isTrue hline =>
    rw [Bool.and_eq_true, decide_eq_true_eq, decide_eq_true_eq] at hline
    obtain ⟨rfl, hhead⟩ := hline
    obtain ⟨s, rfl⟩ := List.head?_eq_some_iff.mp hhead
    obtain ⟨p, hp, rfl⟩ := Scan.precede_eq_ok_iff.mp h
    obtain ⟨t, p, rest, ht, hrest, rfl⟩ := Scan.andThen_eq_ok_iff.mp hp
    obtain ⟨hsplit, hin, hout⟩ := takeWhile_eq_iff.mp (Except.ok.inj ht)
    have hnext := ih hrest
    -- the line ends before the expression does
    obtain ⟨d, rest, rfl⟩ := List.exists_cons_of_ne_nil hnext.ne_nil
    obtain rfl : d = '\n' := by simpa using hout d rfl
    obtain ⟨t, rfl⟩ : ∃ t', t = '/' :: t' := by
      cases t with
      | nil => cases hsplit
      | cons d t => exact ⟨t, by rw [(List.cons.inj hsplit).1]⟩
    obtain rfl : s = t ++ '\n' :: rest := (List.cons.inj hsplit).2
    refine .line (fun hmem => ?_) rfl hnext
    simpa using hin '\n' (List.mem_cons_of_mem _ hmem)
  split at h
  case isTrue hblock =>
    rw [Bool.and_eq_true, decide_eq_true_eq, decide_eq_true_eq] at hblock
    obtain ⟨rfl, hhead⟩ := hblock
    obtain ⟨s, rfl⟩ := List.head?_eq_some_iff.mp hhead
    obtain ⟨p, hp, rfl⟩ := Scan.precede_eq_ok_iff.mp h
    obtain ⟨t, p, rest, hcomment, hrest, rfl⟩ := Scan.andThen_eq_ok_iff.mp hp
    obtain ⟨t, ht, rfl⟩ := Scan.precede_eq_ok_iff.mp hcomment
    obtain ⟨-, hsplit, -⟩ := commentRest_readsAs ht
    obtain rfl : s = t ++ rest := hsplit
    exact .block ht (ih hrest)
  case isFalse hopen hclose hquote htick hline hblock =>
    rw [if_neg (by simp)] at h
    obtain ⟨p, hp, rfl⟩ := Scan.precede_eq_ok_iff.mp h
    have hmarks : c ∉ embeddedMarks := by
      simp only [Bool.or_eq_true, decide_eq_true_eq, not_or] at hquote
      simp [embeddedMarks, hopen, hclose, hquote, htick]
    refine .char hmarks (fun hslash => ?_) (ih hp)
    cases s with
    | nil => rfl
    | cons d s =>
      simp only [hslash, List.head?_cons, decide_true, Bool.true_and, decide_eq_true_eq, Option.some.injEq] at hline hblock
      simp [hline, hblock]

/-- **What is passed over is read as an embedded expression**, with enough fuel and whatever stood before. -/
theorem Skips.embeddedRest (h : Skips inner s r) :
    ∃ n p, s = p ++ r ∧ ∀ last, Lexeme.embeddedRest false n inner last s = .ok ⟨p, r⟩ := by
  have hnot {c : Char} (hc : c ∉ embeddedMarks) : c ≠ '\x7b' ∧ c ≠ '\x7d' ∧ c ≠ '"' ∧ c ≠ '\'' ∧ c ≠ '\x60' := by
    simpa [embeddedMarks] using hc
  induction h with
  | close r => exact ⟨1, ['\x7d'], rfl, fun _ => rfl⟩
  | openBrace _ ih =>
    obtain ⟨n, p, rfl, hread⟩ := ih
    exact ⟨n + 1, '\x7b' :: p, rfl, fun last => by simp [Lexeme.embeddedRest, hread]⟩
  | closeBrace _ ih =>
    obtain ⟨n, p, rfl, hread⟩ := ih
    exact ⟨n + 1, '\x7d' :: p, rfl, fun last => by simp [Lexeme.embeddedRest, hread]⟩
  | @string inner q t s r hq ht _ ih =>
    obtain ⟨n, p, rfl, hread⟩ := ih
    refine ⟨n + 1, q :: (t ++ p), by simp, fun last => ?_⟩
    rcases hq with rfl | rfl <;> simp [Lexeme.embeddedRest, ht, hread]
  | @template inner m t s r ht _ ih =>
    obtain ⟨n, p, rfl, hread⟩ := ih
    refine ⟨max n m + 1, '\x60' :: (t ++ p), by simp, fun last => ?_⟩
    have ht' := ((levelReadsAs false (Nat.le_max_right n m)).template ht).2.2 (p ++ r)
    have hread' (last : Char) := ((levelReadsAs false (Nat.le_max_left n m)).embedded _ _ (hread last)).2.2 r
    simp [Lexeme.embeddedRest, ht', hread']
  | @line inner t s r ht hs _ ih =>
    obtain ⟨n, p, rfl, hread⟩ := ih
    refine ⟨n + 1, '/' :: '/' :: (t ++ p), by simp, fun last => ?_⟩
    have hline : lineRest ('/' :: (t ++ (p ++ r))) = ⟨'/' :: t, p ++ r⟩ := by
      refine takeWhile_eq_iff.mpr ⟨rfl, fun d hd => decide_eq_true fun hbreak => ?_, fun d hd => ?_⟩
      · subst hbreak
        simp [ht] at hd
      · rw [hs] at hd
        simpa using (Option.some.inj hd).symm
    simp [Lexeme.embeddedRest, hline, hread]
  | @block inner t s r ht _ ih =>
    obtain ⟨n, p, rfl, hread⟩ := ih
    exact ⟨n + 1, '/' :: '*' :: (t ++ p), by simp, fun last => by simp [Lexeme.embeddedRest, ht, hread]⟩
  | @char inner c s r hc hslash _ ih =>
    obtain ⟨n, p, rfl, hread⟩ := ih
    refine ⟨n + 1, c :: p, rfl, fun last => ?_⟩
    obtain ⟨hopen, hclose, hdouble, hsingle, htick⟩ := hnot hc
    have hnext : ∀ d, d = '/' ∨ d = '*' → (c = '/' && (p ++ r).head? = some d) = false := by
      intro d hd
      rw [Bool.and_eq_false_imp, decide_eq_true_eq, decide_eq_false_iff_not]
      intro hc hhead
      have hnone := hslash hc
      rcases hd with rfl | rfl <;> simp [hhead] at hnone
    unfold Lexeme.embeddedRest
    rw [if_neg hopen, if_neg hclose, if_neg (by simp [hdouble, hsingle]), if_neg htick, hnext '/' (Or.inl rfl),
      hnext '*' (Or.inr rfl)]
    simp [hread]

/-! ## Characters that mean nothing -/

/-- A character that neither opens nor closes anything and begins no comment. -/
def IsInert (c : Char) : Prop := c ∉ '/' :: embeddedMarks

/-- A kind of characters is inert when no other character is of the kind. -/
theorem isInert_of {f : Char → Bool} (hf : (('/' :: embeddedMarks).all fun c => !f c) = true) (hc : f c = true) :
    IsInert c := by
  intro hmem
  have hnot := List.all_eq_true.mp hf c hmem
  simp [hc] at hnot

/-- Inert characters are passed over. -/
theorem Skips.inert (ht : ∀ c ∈ t, IsInert c) (h : Skips inner s r) : Skips inner (t ++ s) r := by
  induction t with
  | nil => exact h
  | cons c t ih =>
    obtain ⟨hc, ht⟩ := List.forall_mem_cons.mp ht
    obtain ⟨hslash, hmarks⟩ := not_or.mp (mt List.mem_cons.mpr hc)
    exact .char hmarks (fun hc => absurd hc hslash) (ih ht)

/-- The characters of a number are inert. -/
theorem numberRest_inert {hex : Bool} {last : Char} (h : numberRest hex last s = ⟨t, u⟩) : ∀ c ∈ t, IsInert c := by
  induction s generalizing last t with
  | nil =>
    obtain ⟨rfl, -⟩ := Split.mk.inj h
    exact nofun
  | cons c s ih =>
    rw [numberRest_cons] at h
    cases hc : continuesNumber hex last c with
    | false =>
      rw [hc] at h
      obtain ⟨rfl, -⟩ := Split.mk.inj h
      exact nofun
    | true =>
      rw [hc] at h
      obtain ⟨rfl, hrest⟩ := Split.mk.inj h
      have hmarks : (('/' :: embeddedMarks).all fun c => !continuesNumber hex last c) = true := by
        simp [embeddedMarks, continuesNumber]
      exact List.forall_mem_cons.mpr ⟨isInert_of hmarks hc, ih (by rw [← hrest])⟩

/-! ## Gaps -/

/-- A block comment goes up to its first end. -/
theorem commentRest_body {body : List Char} (hbody : ¬ ['*', '/'] <:+: body) (s : List Char) :
    commentRest (body ++ ['*', '/'] ++ s) = .ok ⟨body ++ ['*', '/'], s⟩ := by
  induction body with
  | nil => rfl
  | cons c body ih =>
    obtain ⟨hhere, hbody⟩ := not_or.mp (mt List.infix_cons_iff.mpr hbody)
    rw [List.cons_append, List.cons_append, commentRest, ih hbody]
    · rfl
    · rintro r rfl hr
      cases body with
      | nil => cases hr
      | cons e body =>
        obtain ⟨rfl, -⟩ := List.cons.inj hr
        exact hhere ⟨body, rfl⟩

/-- **Blanks and comments are passed over**, the last line comment with the line feed behind it. -/
theorem Skips.gap {ends : Bool} {g : List Char} {d : Option (List Char)} (hgap : IsGap ends g d)
    (hends : ends = true → s.head? = some '\n') (h : Skips inner s r) : Skips inner (g ++ s) r := by
  induction hgap with
  | nil => exact h
  | blank hc _ ih => exact .inert (t := [_]) (by simpa using isInert_of (by decide +kernel) hc) ih
  | @line body g d hbody _ ih =>
    rw [List.cons_append, List.cons_append, List.append_assoc]
    exact .line hbody rfl ih
  | @lastLine body hbody hlast => exact .line hbody (hends hlast) h
  | @block body g d hbody hplain _ ih =>
    have hcomment := commentRest_body hbody (g ++ s)
    have hshape : body ++ '*' :: '/' :: g ++ s = body ++ ['*', '/'] ++ (g ++ s) := by simp
    rw [List.cons_append, List.cons_append, hshape]
    exact .block hcomment ih
  | @doc body g d hbody hne _ ih =>
    have hcomment := commentRest_body hbody (g ++ s)
    have hshape : '*' :: (body ++ '*' :: '/' :: g) ++ s = '*' :: body ++ ['*', '/'] ++ (g ++ s) := by simp
    rw [List.cons_append, List.cons_append, hshape]
    exact .block hcomment ih

/-! ## Tokens -/

/-- A punctuator has one character or is one of the list. -/
theorem punctuator_text (hs : s ≠ []) (h : punctuator s = ⟨t, u⟩) : t ∈ punctuators ∨ ∃ c, t = [c] := by
  unfold punctuator at h
  split at h
  case h_1 front hfront =>
    obtain ⟨rfl, -⟩ := Split.mk.inj h
    exact Or.inl (List.mem_of_find?_eq_some hfront)
  case h_2 =>
    obtain ⟨c, s, rfl⟩ := List.exists_cons_of_ne_nil hs
    obtain ⟨rfl, -⟩ := Split.mk.inj h
    exact Or.inr ⟨c, rfl⟩

/-- Of the characters of a longer punctuator, only the first one can be a slash, and none is a mark. -/
theorem punctuators_inert (h : c :: t ∈ punctuators) : c ∉ embeddedMarks ∧ (∀ d ∈ t, IsInert d) ∧ (c = '/' → t = ['=']) := by
  have hall : (punctuators.all fun p => (p.take 1).all (· ∉ embeddedMarks) && (p.drop 1).all (· ∉ '/' :: embeddedMarks) &&
      (p.take 1 ≠ ['/'] || p.drop 1 = ['='])) = true := by decide +kernel
  have hp := List.all_eq_true.mp hall _ h
  simp only [List.take_succ_cons, List.take_zero, List.drop_succ_cons, List.drop_zero, Bool.and_eq_true, Bool.or_eq_true,
    List.all_eq_true, decide_eq_true_eq] at hp
  obtain ⟨⟨hc, ht⟩, hslash⟩ := hp
  refine ⟨hc c (by simp), ht, ?_⟩
  rintro rfl
  exact hslash.resolve_left (by simp)

/-- **A token that is no brace is passed over**, unless it is a regular expression. -/
theorem Skips.token {operand : Bool} {kind : TokenKind} {p v : List Char}
    (hlexeme : lexeme false operand (p ++ s) = .ok (kind, ⟨p, s⟩))
    (hstop : Gap.scan (p ++ s) = .ok ⟨[], none, p ++ s⟩) (hp : p ≠ [])
    (hv : v.head?.any (fun d => d = '/' || d = '*') = false)
    (hregex : kind ≠ .regex) (hbrace : kind = .punct → p ≠ ['\x7b'] ∧ p ≠ ['\x7d']) (h : Skips inner (s ++ v) r) :
    Skips inner (p ++ (s ++ v)) r := by
  obtain ⟨c, t, rfl⟩ := List.exists_cons_of_ne_nil hp
  rw [List.cons_append] at hlexeme hstop ⊢
  have hslash : c = '/' → (t ++ (s ++ v)).head?.any (fun d => d = '/' || d = '*') = false := by
    intro hc
    have hnext := (Gap.scan_eq_nil_iff.mp hstop).2 hc
    rw [← List.append_assoc]
    cases hrest : t ++ s with
    | nil => exact hv
    | cons d rest => rwa [hrest] at hnext
  unfold lexeme at hlexeme
  dsimp only at hlexeme
  split at hlexeme
  case isTrue hquote =>
    have hq := isQuote_iff.mpr hquote
    obtain ⟨rfl, t', ht, heq⟩ := tagged_eq_ok_iff.mp hlexeme
    obtain rfl : t = t' := (List.cons.inj heq).2
    exact .string hq ((stringRest_readsAs hq.ne_backslash ht).2.2 _) h
  split at hlexeme
  case isTrue htick =>
    obtain ⟨rfl, t', ht, heq⟩ := tagged_eq_ok_iff.mp hlexeme
    obtain rfl : t = t' := (List.cons.inj heq).2
    exact htick ▸ .template (((levelReadsAs false (Nat.le_refl _)).template ht).2.2 _) h
  split at hlexeme
  case isTrue hnumber =>
    obtain ⟨-, hnum⟩ := Prod.mk.inj (Except.ok.inj hlexeme)
    rw [number_cons] at hnum
    obtain ⟨htext, hrest⟩ := Split.mk.inj hnum
    have hfirst : IsInert c := by
      refine isInert_of (f := fun c => c.isDigit || c = '.') (by decide +kernel) ?_
      simp only [Bool.or_eq_true, Bool.and_eq_true] at hnumber ⊢
      exact hnumber.imp_right And.left
    have hmore := numberRest_inert (congrArg₂ Split.mk (List.cons.inj htext).2 hrest)
    exact .inert (t := c :: t) (List.forall_mem_cons.mpr ⟨hfirst, hmore⟩) h
  split at hlexeme
  case isTrue hident =>
    obtain ⟨rfl, t', ht, heq⟩ := tagged_eq_ok_iff.mp hlexeme
    obtain rfl : t = t' := (List.cons.inj heq).2
    have hin := (takeWhile_eq_iff.mp (Except.ok.inj ht)).2.1
    have hmore : ∀ d ∈ t, IsInert d := fun d hd => isInert_of (by decide +kernel) (hin d hd)
    exact .inert (t := c :: t) (List.forall_mem_cons.mpr ⟨isInert_of (by decide +kernel) hident, hmore⟩) h
  split at hlexeme
  case isTrue => exact absurd (tagged_eq_ok_iff.mp hlexeme).1.symm hregex
  split at hlexeme
  case isTrue helement => simp at helement
  case isFalse hquote htick _ _ _ _ =>
    obtain ⟨rfl, hpunct⟩ := Prod.mk.inj (Except.ok.inj hlexeme)
    rcases punctuator_text (by simp) hpunct with hlong | ⟨d, hd⟩
    · obtain ⟨hc, hmore, -⟩ := punctuators_inert hlong
      exact .char hc hslash (.inert hmore h)
    · obtain ⟨rfl, rfl⟩ := List.cons.inj hd
      obtain ⟨hopen, hclose⟩ := hbrace rfl
      have hmarks : c ∉ embeddedMarks := by
        simp only [Bool.or_eq_true, decide_eq_true_eq, not_or] at hquote
        simp only [ne_eq, List.cons.injEq, and_true] at hopen hclose
        simp [embeddedMarks, hopen, hclose, hquote, htick]
      exact .char hmarks hslash h

/-! ## Regular expressions -/

/-- A regular expression is passed over where a closing brace follows it. -/
def IsSkipped (p : List Char) : Prop :=
  embeddedRest false (2 * p.length + 2) 0 '\x7b' (p ++ ['\x7d']) = .ok ⟨p ++ ['\x7d'], []⟩

instance : DecidablePred IsSkipped := fun _ => inferInstanceAs (Decidable (_ = _))

/-- What is put before a last character. -/
theorem exists_append_of_append_singleton {w : List Char} (h : t ++ s = w ++ [c]) (hs : s ≠ []) :
    ∃ w', s = w' ++ [c] ∧ w = t ++ w' := by
  obtain ⟨w', d, rfl⟩ := (List.eq_nil_or_concat' s).resolve_left hs
  rw [← List.append_assoc] at h
  obtain ⟨hw, hd⟩ := List.append_inj' h rfl
  exact ⟨w', by rw [(List.cons.inj hd).1], hw.symm⟩

/-- The last character of an end is that of the whole. -/
theorem getLast?_append_of_eq {w : List Char} (h : w.getLast? = some c) : (t ++ w).getLast? = some c := by
  rw [List.getLast?_append, h]
  rfl

/-- **What is passed over before a closing brace** is passed over before anything, but for a slash at the end, which may
begin a comment. -/
theorem Skips.before {k depth : Nat} {w rest : List Char} (h : Skips k s rest) (hs : s = w ++ ['\x7d']) (hrest : rest = [])
    (hu : Skips depth u r) (hslash : w.getLast? = some '/' → u.head?.any (fun d => d = '/' || d = '*') = false) :
    Skips (depth + k) (w ++ u) r := by
  -- the induction is on what is passed over; the brace at its end is the one that closes it
  induction h generalizing w with
  | close r =>
    subst hrest
    obtain rfl : w = [] := by simpa using congrArg List.length hs
    exact hu
  | openBrace h ih =>
    obtain ⟨w', rfl, rfl⟩ := exists_append_of_append_singleton (t := ['\x7b']) hs h.ne_nil
    exact .openBrace (ih rfl hrest fun hlast => hslash (getLast?_append_of_eq hlast))
  | closeBrace h ih =>
    obtain ⟨w', rfl, rfl⟩ := exists_append_of_append_singleton (t := ['\x7d']) hs h.ne_nil
    exact .closeBrace (ih rfl hrest fun hlast => hslash (getLast?_append_of_eq hlast))
  | @string k q t s r hq ht h ih =>
    obtain ⟨w', rfl, rfl⟩ := exists_append_of_append_singleton (t := q :: t) hs h.ne_nil
    have hrest := ih rfl hrest fun hlast => hslash (getLast?_append_of_eq hlast)
    have hshape : q :: t ++ w' ++ u = q :: (t ++ (w' ++ u)) := by simp
    rw [hshape]
    exact .string hq ((stringRest_readsAs hq.ne_backslash ht).2.2 _) hrest
  | @template k n t s r ht h ih =>
    obtain ⟨w', rfl, rfl⟩ := exists_append_of_append_singleton (t := '\x60' :: t) hs h.ne_nil
    have hrest := ih rfl hrest fun hlast => hslash (getLast?_append_of_eq hlast)
    have hshape : '\x60' :: t ++ w' ++ u = '\x60' :: (t ++ (w' ++ u)) := by simp
    rw [hshape]
    exact .template (((levelReadsAs false (Nat.le_refl n)).template ht).2.2 _) hrest
  | @line k t s r ht hhead h ih =>
    obtain ⟨w', rfl, rfl⟩ := exists_append_of_append_singleton (t := '/' :: '/' :: t) hs h.ne_nil
    have hrest := ih rfl hrest fun hlast => hslash (getLast?_append_of_eq hlast)
    have hshape : '/' :: '/' :: t ++ w' ++ u = '/' :: '/' :: (t ++ (w' ++ u)) := by simp
    rw [hshape]
    refine .line ht ?_ hrest
    cases w' with
    | nil => cases hhead
    | cons d w' => exact hhead
  | @block k t s r ht h ih =>
    obtain ⟨w', rfl, rfl⟩ := exists_append_of_append_singleton (t := '/' :: '*' :: t) hs h.ne_nil
    have hrest := ih rfl hrest fun hlast => hslash (getLast?_append_of_eq hlast)
    have hshape : '/' :: '*' :: t ++ w' ++ u = '/' :: '*' :: (t ++ (w' ++ u)) := by simp
    rw [hshape]
    exact .block ((commentRest_readsAs ht).2.2 _) hrest
  | @char k c s r hc hnext h ih =>
    obtain ⟨w', rfl, rfl⟩ := exists_append_of_append_singleton (t := [c]) hs h.ne_nil
    have hrest := ih rfl hrest fun hlast => hslash (getLast?_append_of_eq hlast)
    refine .char hc (fun heq => ?_) hrest
    cases w' with
    | nil => exact hslash (by simp [heq])
    | cons d w' => exact hnext heq

/-- A regular expression that is passed over before a closing brace. -/
theorem IsSkipped.skips {p : List Char} (hp : IsSkipped p) (h : Skips inner u r)
    (hslash : p.getLast? = some '/' → u.head?.any (fun d => d = '/' || d = '*') = false) : Skips inner (p ++ u) r :=
  (skips_of_embeddedRest hp).before rfl rfl h hslash

end Lexeme

namespace Token

/-- Whether the braces among some tokens, and `depth` more that are open before them, are all closed, and no brace
closes what was not opened. -/
def closesBraces : (depth : Nat) → List Token → Bool
  | depth, [] => depth = 0
  | depth, t :: r =>
    if t.isPunct "\x7b" then closesBraces (depth + 1) r
    else if t.isPunct "\x7d" then
      match depth with
      | 0 => false
      | depth + 1 => closesBraces depth r
    else closesBraces depth r

/-- A token of a source is passed over as what it is. Of a regular expression it is asked that it would be passed over
before a closing brace, and that no slash at its end begins a comment with what follows. -/
def IsPassable (source : String) (t : Token) : Prop :=
  t.kind = .regex → IsSkipped t.text.toList ∧
    (t.text.toList.getLast? = some '/' → (t.cut source).2.head?.any (fun d => d = '/' || d = '*') = false)

instance (source : String) : DecidablePred (IsPassable source) := fun _ => inferInstanceAs (Decidable (_ → _))

end Token

namespace Lexer

variable {x z : Place} {ts : List Token} {source : String}

/-- **Tokens are passed over** when their own braces are balanced and what follows them is passed over. -/
theorem Steps.skips_append (h : Steps false x ts z) {before line u r : List Char} (hx : x.At source before line)
    (hend : Skips 0 (z.rest ++ u) r) (hu : u.head?.any (fun d => d = '/' || d = '*') = false) {depth : Nat}
    (hbraces : Token.closesBraces depth ts = true) (hpass : ∀ t ∈ ts, t.IsPassable source) :
    Skips depth (x.rest ++ u) r := by
  induction h generalizing before line depth with
  | refl x =>
    obtain rfl : depth = 0 := by simpa [Token.closesBraces] using hbraces
    exact hend
  | @head x y z t ts hstep hsteps ih =>
    obtain ⟨ht, hts⟩ := List.forall_mem_cons.mp hpass
    obtain ⟨front, hcut, -, hy⟩ := hstep.cut hx
    have hbehind : ∀ {d}, Token.closesBraces d ts = true → Skips d (y.rest ++ u) r := fun hd => ih hy hend hd hts
    obtain ⟨doc, hscan, -⟩ := hstep.gap
    have hstop := ((Gap.readsOn _).1 hscan hstep.nonempty).2.1
    obtain ⟨hrest, hisGap⟩ := Gap.scan_isGap _ hscan
    rw [hrest, List.append_assoc, List.append_assoc]
    refine .gap hisGap (fun hnil => absurd (List.isEmpty_iff.mp hnil) hstep.nonempty) ?_
    unfold Token.closesBraces at hbraces
    by_cases hopen : t.isPunct "\x7b" = true
    · rw [if_pos hopen] at hbraces
      obtain ⟨-, htext⟩ : t.kind = .punct ∧ t.text = "\x7b" := by simpa [Token.isPunct] using hopen
      rw [htext]
      exact .openBrace (hbehind hbraces)
    by_cases hclose : t.isPunct "\x7d" = true
    · rw [if_neg hopen, if_pos hclose] at hbraces
      obtain ⟨-, htext⟩ : t.kind = .punct ∧ t.text = "\x7d" := by simpa [Token.isPunct] using hclose
      rw [htext]
      cases depth with
      | zero => cases hbraces
      | succ depth => exact .closeBrace (hbehind hbraces)
    rw [if_neg hopen, if_neg hclose] at hbraces
    by_cases hregex : t.kind = .regex
    · obtain ⟨hskipped, hslash⟩ := ht hregex
      refine hskipped.skips (hbehind hbraces) fun hlast => ?_
      have hnext := hslash hlast
      rw [hcut] at hnext
      cases hleft : y.rest with
      | nil => exact hu
      | cons c rest => rwa [hleft] at hnext
    · refine .token hstep.lexeme hstop hstep.text_ne_nil hu hregex (fun hkind => ?_) (hbehind hbraces)
      have hno : ∀ brace : String, t.isPunct brace ≠ true → t.text.toList ≠ brace.toList := by
        intro brace hnot htext
        exact hnot (by simp [Token.isPunct, hkind, String.toList_injective htext])
      exact ⟨hno _ hopen, hno _ hclose⟩

/-- Tokens are passed over up to a brace on the next line. -/
theorem Steps.skips (h : Steps false x ts z) {before line : List Char} (hx : x.At source before line)
    (hend : ∃ g d, Gap.scan z.rest = .ok ⟨g, d, []⟩) {depth : Nat} (hbraces : Token.closesBraces depth ts = true)
    (hpass : ∀ t ∈ ts, t.IsPassable source) (v : List Char) : Skips depth (x.rest ++ '\n' :: '\x7d' :: v) v := by
  obtain ⟨g, d, hgap⟩ := hend
  obtain ⟨hrest, hisGap⟩ := Gap.scan_isGap _ hgap
  refine h.skips_append hx ?_ rfl hbraces hpass
  rw [hrest, List.append_nil]
  exact .gap hisGap (fun _ => rfl) (.char (by decide) (fun hslash => absurd hslash (by decide)) (.close v))

/-- An embedded expression up to a backtick makes a template literal. -/
theorem lexeme_template {jsx : Bool} (operand : Bool) {n : Nat} {s p r : List Char} (hs : s = p ++ '\x60' :: r)
    (h : embeddedRest jsx n 0 '\x7b' s = .ok ⟨p, '\x60' :: r⟩) :
    lexeme jsx operand ('\x60' :: '$' :: '\x7b' :: s) =
      .ok (.template, ⟨'\x60' :: '$' :: '\x7b' :: (p ++ ['\x60']), r⟩) := by
  -- the fuel of the whole text suffices for what is passed over
  obtain ⟨m, hlength⟩ : ∃ m, 2 * ('\x60' :: '$' :: '\x7b' :: s).length + 2 = 2 * p.length + m + 2 := by
    refine ⟨2 * r.length + 8, ?_⟩
    simp only [hs, List.length_cons, List.length_append]
    omega
  have hfuel : embeddedRest jsx (2 * p.length + m + 1) 0 '\x7b' s = .ok ⟨p, '\x60' :: r⟩ :=
    (levelSuffices jsx n).embedded 0 '\x7b' (by omega) h (Nat.le_refl (2 * p.length))
  have hrest : templateRest jsx (2 * p.length + m + 2) ('$' :: '\x7b' :: s) =
      .ok ⟨'$' :: '\x7b' :: (p ++ ['\x60']), r⟩ := by
    rw [templateRest, hfuel, Scan.andThen_ok]
    rfl
  unfold lexeme
  dsimp only
  rw [if_neg (by decide), if_pos rfl, hlength, hrest]
  rfl

/-- What is passed over up to a backtick is a template literal with one embedded expression. -/
theorem lexeme_of_skips (operand : Bool) {s : List Char} (h : Skips 0 s ['\x60']) :
    lexeme false operand ('\x60' :: '$' :: '\x7b' :: s) = .ok (.template, ⟨'\x60' :: '$' :: '\x7b' :: s, []⟩) := by
  obtain ⟨n, p, rfl, hread⟩ := h.embeddedRest
  exact lexeme_template operand rfl (hread '\x7b')

end Lexer

/-- **An embedded expression ends where its tokens do.** A text without elements and with balanced braces stands between
the braces of a template literal, on a line of its own that ends before the closing brace, and the literal is one token,
provided that the regular expressions of the text are passed over as what they are. -/
theorem tokenize_template {e : String} {ts : List Token} (hmark : ¬ "#!".toList <+: e.toList)
    (helements : mayHaveElements e.toList = false) (htokens : tokenize e = .ok ts)
    (hbraces : Token.closesBraces 0 ts = true) (hpass : ∀ t ∈ ts, t.IsPassable e) :
    tokenize ("\x60$\x7b" ++ e ++ "\n\x7d\x60") =
      .ok [⟨.template, "\x60$\x7b" ++ e ++ "\n\x7d\x60", "", .start, none⟩] := by
  have hrun : run false e.toList = .ok ts := by
    rwa [tokenize, tokens, helements] at htokens
  obtain ⟨z, hsteps, hend⟩ := run_eq_ok_iff_steps.mp hrun
  rw [Place.first_of_not_mark hmark] at hsteps
  have hfirst : (Place.mk none .start e.toList).At e [] [] := ⟨rfl, rfl, Or.inl rfl⟩
  have hlexeme := lexeme_of_skips true (hsteps.skips hfirst hend hbraces hpass ['\x60'])
  have hwhole : ("\x60$\x7b" ++ e ++ "\n\x7d\x60").toList =
      '\x60' :: '$' :: '\x7b' :: (e.toList ++ '\n' :: ['\x7d', '\x60']) := by simp
  have hplain : mayHaveElements ("\x60$\x7b" ++ e ++ "\n\x7d\x60").toList = false := by
    have hshape : '\x60' :: '$' :: '\x7b' :: (e.toList ++ '\n' :: ['\x7d', '\x60']) =
        ['\x60', '$'] ++ '\x7b' :: (e.toList ++ '\n' :: ['\x7d', '\x60']) := rfl
    rw [hwhole, hshape, mayHaveElements_between (by decide), mayHaveElements_below, helements]
    rfl
  rw [tokenize, tokens, hplain, if_neg (by decide), run_eq_ok_iff_steps, hwhole,
    Place.first_of_not_mark (by simp)]
  refine ⟨⟨some _, _, []⟩, .head ⟨⟨none, ?_, rfl⟩, rfl, ?_, ?_, rfl, rfl⟩ (.refl _), [], none, rfl⟩
  · rw [hwhole, List.append_nil]
    exact Gap.scan_eq_nil_iff.mpr ⟨by decide +kernel, fun hslash => absurd hslash (by decide)⟩
  · rw [hwhole]
    simp
  · rw [hwhole, List.append_nil]
    exact hlexeme

/-- A call with a regular expression, a template literal and a comment. -/
def callWithRegex : String := "f(\x7b a: /x\x7b2\x7d/g, b: \x60$\x7bc\x7d\x60 \x7d) // \x7d"

/-- The braces of a regular expression are passed over when they are balanced. -/
theorem tokenize_template_callWithRegex :
    ∃ ts, tokenize callWithRegex = .ok ts ∧ (∃ t ∈ ts, t.kind = .regex) ∧
      tokenize ("\x60$\x7b" ++ callWithRegex ++ "\n\x7d\x60") =
        .ok [⟨.template, "\x60$\x7b" ++ callWithRegex ++ "\n\x7d\x60", "", .start, none⟩] := by
  have hchecked : (tokenize callWithRegex).toOption.any (fun ts => ts.any (fun t => t.kind = .regex) &&
      Token.closesBraces 0 ts && ts.all (fun t => t.IsPassable callWithRegex)) = true := by decide +kernel
  cases htokens : tokenize callWithRegex with
  | error fault => simp [htokens, Except.toOption] at hchecked
  | ok ts =>
    simp only [htokens, Except.toOption, Option.any_some, Bool.and_eq_true, List.any_eq_true, List.all_eq_true,
      decide_eq_true_eq] at hchecked
    obtain ⟨⟨hregex, hbraces⟩, hpass⟩ := hchecked
    exact ⟨ts, rfl, hregex, tokenize_template (by decide +kernel) (by decide +kernel) htokens hbraces hpass⟩

/-- The only token of a text that is a regular expression with a backtick. -/
def tickRegex : Token := ⟨.regex, "/\x60/", "", .start, none⟩

/-- A regular expression that holds a backtick is a token, and no embedded expression. -/
theorem not_tokenize_template :
    ¬ "#!".toList <+: "/\x60/".toList ∧ mayHaveElements "/\x60/".toList = false ∧
      tokenize "/\x60/" = .ok [tickRegex] ∧ Token.closesBraces 0 [tickRegex] = true ∧
      tokenize ("\x60$\x7b" ++ "/\x60/" ++ "\n\x7d\x60") = .error ⟨.unterminatedExpression, 2, 3⟩ := by
  decide +kernel

end AppBundler
