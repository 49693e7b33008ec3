import AppBundler.Proofs.Source.Spans
/-!
# String literals with other contents

A text is read as the same tokens when string literals in it are given other contents between their quotes. What
stands before a literal is read up to its first quote and no further, so it is read as before; and what stands behind
one depends on nothing in it.
-/

namespace AppBundler

namespace Lexeme

variable {q : Char} {s p r body : List Char}

/-- The characters that string literals begin and end with. -/
def IsQuote (c : Char) : Prop := c = '"' ∨ c = '\''

instance : DecidablePred IsQuote := fun _ => inferInstanceAs (Decidable (_ ∨ _))

theorem IsQuote.isBoundary (h : IsQuote q) : IsBoundary q := Or.inr (Or.inr h)

theorem IsQuote.ne_backslash (h : IsQuote q) : q ≠ '\\' := by
  rcases h with rfl | rfl <;> decide

/-- A text that may stand between two quotes as it is. -/
def FitsBetween (q : Char) (body : List Char) : Prop := ∀ c ∈ body, c ≠ q ∧ c ≠ '\\' ∧ c ≠ '\n'

/-- What stands between its quotes is a string literal. -/
theorem stringRest_fits (hq : IsQuote q) (h : FitsBetween q body) (r : List Char) :
    stringRest q (body ++ q :: r) = .ok ⟨body ++ [q], r⟩ := by
  induction body with
  | nil =>
    have hbreak : q ≠ '\n' := by rcases hq with rfl | rfl <;> decide
    simp [stringRest, hq.ne_backslash, hbreak]
  | cons c body ih =>
    obtain ⟨⟨hother, hplain, hbreak⟩, hbody⟩ := List.forall_mem_cons.mp h
    rw [List.cons_append, stringRest, if_neg hbreak, if_neg hother, ih hbody, Scan.precede_ok]
    · rfl
    · exact fun hback => absurd hback hplain
    · exact fun _ _ hback => absurd hback hplain

/-- A string literal ends with its quote, and without backslashes it fits between its quotes. -/
theorem exists_body_of_stringRest (h : stringRest q s = .ok ⟨p, r⟩) :
    ∃ body, p = body ++ [q] ∧ ('\\' ∉ body → FitsBetween q body) := by
  fun_induction stringRest q s generalizing p with
  | case1 => cases h
  | case2 => cases h
  | case3 c s ih =>
    obtain ⟨p', hp', rfl⟩ := Scan.precede_eq_ok_iff.mp h
    obtain ⟨body, rfl, -⟩ := ih hp'
    exact ⟨'\\' :: c :: body, rfl, fun hback => absurd List.mem_cons_self hback⟩
  | case4 => cases h
  | case5 s hlast hescape hbreak =>
    cases h
    exact ⟨[], rfl, fun _ => by simp [FitsBetween]⟩
  | case6 c s hlast hescape hbreak hother ih =>
    obtain ⟨p', hp', rfl⟩ := Scan.precede_eq_ok_iff.mp h
    obtain ⟨body, rfl, hfits⟩ := ih hp'
    refine ⟨c :: body, rfl, fun hback => ?_⟩
    rw [List.mem_cons, not_or] at hback
    exact List.forall_mem_cons.mpr ⟨⟨hother, Ne.symm hback.1, hbreak⟩, hfits hback.2⟩

/-! ## The same text up to a quote -/

/-- Two texts are the same, or they are up to a quote and with it. -/
def SameUpToQuote (r r' : List Char) : Prop := r' = r ∨ ∃ w q u v, IsQuote q ∧ r = w ++ q :: u ∧ r' = w ++ q :: v

namespace SameUpToQuote

variable {r r' : List Char} {c : Char}

theorem refl (r : List Char) : SameUpToQuote r r := Or.inl rfl

theorem quote (hq : IsQuote q) (u v : List Char) : SameUpToQuote (q :: u) (q :: v) := Or.inr ⟨[], q, u, v, hq, rfl, rfl⟩

theorem append (h : SameUpToQuote r r') (w : List Char) : SameUpToQuote (w ++ r) (w ++ r') := by
  rcases h with rfl | ⟨w', q, u, v, hq, rfl, rfl⟩
  · exact Or.inl rfl
  · exact Or.inr ⟨w ++ w', q, u, v, hq, by simp, by simp⟩

theorem symm (h : SameUpToQuote r r') : SameUpToQuote r' r := by
  rcases h with rfl | ⟨w, q, u, v, hq, rfl, rfl⟩
  · exact Or.inl rfl
  · exact Or.inr ⟨w, q, v, u, hq, rfl, rfl⟩

theorem head?_eq (h : SameUpToQuote r r') : r'.head? = r.head? := by
  rcases h with rfl | ⟨w, q, u, v, -, rfl, rfl⟩
  · rfl
  · cases w <;> rfl

/-- What is the same up to a quote is so behind any other character. -/
theorem exists_tail (h : SameUpToQuote (c :: r) r') (hc : ¬ IsQuote c) :
    ∃ r'', r' = c :: r'' ∧ SameUpToQuote r r'' := by
  rcases h with rfl | ⟨w, q, u, v, hq, hr, rfl⟩
  · exact ⟨r, rfl, refl r⟩
  · cases w with
    | nil =>
      obtain ⟨rfl, -⟩ := List.cons.inj hr
      exact absurd hq hc
    | cons d w =>
      obtain ⟨rfl, rfl⟩ := List.cons.inj hr
      exact ⟨w ++ q :: v, rfl, Or.inr ⟨w, q, u, v, hq, rfl, rfl⟩⟩

end SameUpToQuote

end Lexeme

open Lexeme

/-! ## Tokens in other words -/

namespace Token

variable {t t' : Token} {text : List Char}

/-- A text in place of a token's: its own, or for a string literal another one between the same quotes. -/
inductive RespelledAs (t : Token) : List Char → Prop where
  | same : RespelledAs t t.text.toList
  | string {q : Char} {old body : List Char} (hkind : t.kind = .string) (hq : IsQuote q)
    (hold : t.text.toList = q :: (old ++ [q])) (hbody : FitsBetween q body) : RespelledAs t (q :: (body ++ [q]))

/-- A token of the same kind behind the same gap, whose text may stand in place of the other's. -/
structure IsRespelling (t t' : Token) : Prop where
  kind : t'.kind = t.kind
  gap : t'.gap = t.gap
  doc : t'.doc = t.doc
  text : t.RespelledAs t'.text.toList

/-- Only string literals are respelled. -/
theorem RespelledAs.eq_or_string (h : t.RespelledAs text) : text = t.text.toList ∨ t.kind = .string := by
  cases h with
  | same => exact Or.inl rfl
  | string hkind => exact Or.inr hkind

theorem IsRespelling.text_eq (h : t.IsRespelling t') (hkind : t.kind ≠ .string) : t'.text = t.text := by
  rcases h.text.eq_or_string with htext | hstring
  · exact String.toList_injective htext
  · exact absurd hstring hkind

/-- Whether an operand may follow does not depend on what is in a string literal. -/
theorem IsRespelling.operandMayFollow (h : t.IsRespelling t') :
    Token.operandMayFollow (some t') = Token.operandMayFollow (some t) := by
  by_cases hkind : t.kind = .string
  · simp only [Token.operandMayFollow, h.kind, hkind]
  · simp only [Token.operandMayFollow, h.kind, h.text_eq hkind]

end Token

namespace Lexer

variable {jsx operand : Bool} {kind : TokenKind} {p r r' : List Char}

/-- A lexeme is read in the same way before all that is the same up to a quote. -/
theorem lexeme_sameUpToQuote (hp : p ≠ []) (h : lexeme jsx operand (p ++ r) = .ok (kind, ⟨p, r⟩))
    (hr : SameUpToQuote r r') : lexeme jsx operand (p ++ r') = .ok (kind, ⟨p, r'⟩) := by
  rcases hr with rfl | ⟨w, q, u, v, hq, rfl, rfl⟩
  · exact h
  · exact lexeme_before hq.isBoundary.endsLexeme hp h v

/-- A string literal is read as one. -/
theorem lexeme_string {q : Char} {body : List Char} (hq : IsQuote q) (h : FitsBetween q body) (r : List Char) :
    lexeme jsx operand (q :: (body ++ [q]) ++ r) = .ok (.string, ⟨q :: (body ++ [q]), r⟩) := by
  have hquote : (decide (q = '"') || decide (q = '\'')) = true := by
    rcases hq with rfl | rfl <;> rfl
  rw [List.cons_append, List.append_assoc, List.singleton_append, lexeme]
  dsimp only
  rw [if_pos hquote, stringRest_fits hq h]
  rfl

/-- A string literal stands between two quotes. -/
theorem exists_body_of_lexeme {s : List Char} (h : lexeme jsx operand s = .ok (.string, ⟨p, r⟩)) :
    ∃ q body, IsQuote q ∧ p = q :: (body ++ [q]) ∧ ('\\' ∉ body → FitsBetween q body) := by
  cases s with
  | nil => cases h
  | cons c s =>
  unfold lexeme at h
  dsimp only at h
  split at h
  case isTrue hquote =>
    obtain ⟨-, p', hp', rfl⟩ := tagged_eq_ok_iff.mp h
    obtain ⟨body, rfl, hfits⟩ := exists_body_of_stringRest hp'
    exact ⟨c, body, by simpa [IsQuote] using hquote, rfl, hfits⟩
  -- what begins with no quote is of another kind
  split at h
  case isTrue => exact absurd (tagged_eq_ok_iff.mp h).1 (by decide)
  split at h
  case isTrue => exact absurd (Prod.mk.inj (Except.ok.inj h)).1 (by decide)
  split at h
  case isTrue => exact absurd (tagged_eq_ok_iff.mp h).1 (by decide)
  split at h
  case isTrue => exact absurd (tagged_eq_ok_iff.mp h).1 (by decide)
  split at h
  case isTrue => exact absurd (tagged_eq_ok_iff.mp h).1 (by decide)
  case isFalse => exact absurd (Prod.mk.inj (Except.ok.inj h)).1 (by decide)

/-! ## Reading on -/

variable {x y z : Place} {t : Token} {ts : List Token}

/-- A gap is read in the same way before all that begins with the same two characters. -/
theorem scan_before {g s s' : List Char} {d : Option (List Char)} {c : Char}
    (h : Gap.scan (g ++ c :: s) = .ok ⟨g, d, c :: s⟩) (hs : c = '/' → s'.head? = s.head?) :
    Gap.scan (g ++ c :: s') = .ok ⟨g, d, c :: s'⟩ := by
  obtain ⟨-, hstop, hread⟩ := (Gap.readsOn _).1 h (by simp)
  obtain ⟨hblank, hslash⟩ := Gap.scan_eq_nil_iff.mp hstop
  have hstop' : Gap.scan (c :: s') = .ok ⟨[], none, c :: s'⟩ :=
    Gap.scan_eq_nil_iff.mpr ⟨hblank, fun hc => by rw [hs hc]; exact hslash hc⟩
  rw [hread, hstop']
  simp [Gap.withDoc, Gap.precede]

/-- **A step over a token in other words**, before a text that is the same up to a quote. -/
theorem Step.respell (h : Step jsx x t y) {text : List Char} (ht : t.RespelledAs text) {last : Option Token}
    (hlast : Token.operandMayFollow last = Token.operandMayFollow x.last) (hr : SameUpToQuote y.rest r')
    (p : Position) :
    ∃ t', Step jsx ⟨last, p, t.gap.toList ++ (text ++ r')⟩ t' ⟨some t', (p.after t.gap.toList).after text, r'⟩ ∧
      t.IsRespelling t' ∧ t'.text.toList = text := by
  obtain ⟨doc, hgap, hdoc⟩ := h.gap
  rw [h.rest_eq] at hgap
  refine ⟨⟨t.kind, String.ofList text, t.gap, p.after t.gap.toList, t.doc⟩, ⟨⟨doc, ?_, hdoc⟩, rfl, ?_, ?_, rfl, ?_⟩,
    ⟨rfl, rfl, rfl, by simpa using ht⟩, String.toList_ofList⟩
  all_goals simp only [String.toList_ofList, hlast]
  · cases ht with
    | same =>
      obtain ⟨c, text, htext⟩ := List.exists_cons_of_ne_nil h.text_ne_nil
      rw [htext, List.cons_append] at hgap ⊢
      refine scan_before hgap fun _ => ?_
      exact (hr.append text).head?_eq
    | string hkind hq hold hbody =>
      rw [hold] at hgap
      refine scan_before hgap fun hslash => ?_
      rcases hq with rfl | rfl <;> cases hslash
  · cases ht with
    | same => simp [h.text_ne_nil]
    | string => simp
  · cases ht with
    | same => exact lexeme_sameUpToQuote h.text_ne_nil h.lexeme hr
    | string hkind hq hold hbody =>
      rw [hkind]
      exact lexeme_string hq hbody r'

/-- What tokens spell when they have other texts. -/
def respelled (new : Token → List Char) (ts : List Token) : List Char := ts.flatMap fun t => t.gap.toList ++ new t

/-- Texts that are spelled in other words are the same up to the first one of them. -/
theorem Steps.sameUpToQuote (h : Steps jsx x ts z) {new : Token → List Char} (hnew : ∀ t ∈ ts, t.RespelledAs (new t)) :
    SameUpToQuote x.rest (respelled new ts ++ z.rest) := by
  induction h with
  | refl => exact .refl _
  | @head x y z t ts hstep hsteps ih =>
    obtain ⟨ht, hts⟩ := List.forall_mem_cons.mp hnew
    rw [hstep.rest_eq, respelled, List.flatMap_cons, List.append_assoc, List.append_assoc]
    refine SameUpToQuote.append ?_ _
    generalize new t = text at ht
    cases ht with
    | same => exact (ih hts).append _
    | string hkind hq hold hbody =>
      rw [hold]
      exact .quote hq _ _

/-- **Steps over tokens in other words.** -/
theorem Steps.respell (h : Steps jsx x ts z) {new : Token → List Char} (hnew : ∀ t ∈ ts, t.RespelledAs (new t))
    {last : Option Token} (hlast : Token.operandMayFollow last = Token.operandMayFollow x.last) (p : Position) :
    ∃ ts' z', Steps jsx ⟨last, p, respelled new ts ++ z.rest⟩ ts' z' ∧ z'.rest = z.rest ∧
      List.Forall₂ (fun t t' => t.IsRespelling t' ∧ t'.text.toList = new t) ts ts' := by
  induction h generalizing last p with
  | refl x => exact ⟨[], _, .refl _, rfl, .nil⟩
  | @head x y z t ts hstep hsteps ih =>
    obtain ⟨ht, hts⟩ := List.forall_mem_cons.mp hnew
    obtain ⟨t', hstep', hrespelling, htext⟩ := hstep.respell ht hlast (hsteps.sameUpToQuote hts) p
    have hoperand : Token.operandMayFollow (some t') = Token.operandMayFollow y.last := by
      rw [hrespelling.operandMayFollow, hstep.last]
    obtain ⟨ts', z', hsteps', hrest, hall⟩ := ih hts hoperand ((p.after t.gap.toList).after (new t))
    refine ⟨t' :: ts', z', .head ?_ hsteps', hrest, .cons ⟨hrespelling, htext⟩ hall⟩
    rwa [respelled, List.flatMap_cons, List.append_assoc, List.append_assoc]

/-! ## Whole texts -/

variable {s : List Char}

/-- The place where the reading of a text begins, behind an interpreter line. -/
def Place.first (s : List Char) : Place :=
  ⟨none, Position.start.after (interpreterLine s).text, (interpreterLine s).rest⟩

theorem interpreterLine_append (s : List Char) : (interpreterLine s).text ++ (interpreterLine s).rest = s := by
  unfold interpreterLine
  split
  · exact List.takeWhile_append_dropWhile
  · rfl

/-- An interpreter line goes to the end of the first line, and that is the same up to a quote. -/
theorem interpreterLine_sameUpToQuote (h : SameUpToQuote (interpreterLine s).rest r') :
    interpreterLine ((interpreterLine s).text ++ r') = ⟨(interpreterLine s).text, r'⟩ := by
  unfold interpreterLine at h ⊢
  split at h
  case h_1 r =>
    rw [lineRest_mark] at h ⊢
    obtain ⟨-, hin, hout⟩ := takeWhile_eq_iff.mp (rfl : lineRest r = ⟨(lineRest r).text, (lineRest r).rest⟩)
    have hrest : lineRest ((lineRest r).text ++ r') = ⟨(lineRest r).text, r'⟩ :=
      takeWhile_eq_iff.mpr ⟨rfl, hin, h.head?_eq ▸ hout⟩
    dsimp only [List.cons_append]
    rw [lineRest_mark, hrest]
    rfl
  case h_2 hs =>
    dsimp only
    split
    case h_1 r heq =>
      -- a text that is the same up to a quote would have the same mark
      rw [List.nil_append] at heq
      rw [heq] at h
      obtain ⟨r, rfl, hr⟩ := h.symm.exists_tail (by decide)
      obtain ⟨r, rfl, -⟩ := hr.exists_tail (by decide)
      exact absurd rfl (hs r)
    case h_2 => rfl

/-- A text is read when its tokens are steps to a gap at the end. -/
theorem run_eq_ok_iff_steps :
    run jsx s = .ok ts ↔ ∃ z, Steps jsx (Place.first s) ts z ∧ ∃ g d, Gap.scan z.rest = .ok ⟨g, d, []⟩ := by
  rw [run_eq_ok_iff]
  constructor
  · intro h
    rw [← List.append_nil ts] at h
    obtain ⟨m, z, -, hsteps, hend⟩ := exists_steps h
    exact ⟨z, hsteps, scan_of_from?_nil hend⟩
  · rintro ⟨z, hsteps, g, d, hgap⟩
    have hlength : (interpreterLine s).rest.length ≤ s.length := by
      conv_rhs => rw [← interpreterLine_append s, List.length_append]
      exact Nat.le_add_left _ _
    have htokens : z.rest.length + ts.length ≤ (interpreterLine s).rest.length := hsteps.length_le
    obtain ⟨n, hn⟩ : ∃ n, s.length + 1 = n + 1 + ts.length := ⟨s.length - ts.length, by omega⟩
    have hend : from? jsx (n + 1) z = .ok [] := by
      rw [from?, tokensFrom, hgap]
      rfl
    have hall := hsteps.from?_eq (n := n + 1)
    rw [hend] at hall
    rw [hn]
    exact hall.trans (by simp [Except.map])

/-- **A text in other words** is read as its tokens in other words. -/
theorem run_respell {z : Place} {new : Token → List Char} (h : Steps jsx (Place.first s) ts z)
    (hend : ∃ g d, Gap.scan z.rest = .ok ⟨g, d, []⟩) (hnew : ∀ t ∈ ts, t.RespelledAs (new t)) :
    ∃ ts' z', Steps jsx (Place.first ((interpreterLine s).text ++ (respelled new ts ++ z.rest))) ts' z' ∧
      z'.rest = z.rest ∧ run jsx ((interpreterLine s).text ++ (respelled new ts ++ z.rest)) = .ok ts' ∧
      List.Forall₂ (fun t t' => t.IsRespelling t' ∧ t'.text.toList = new t) ts ts' := by
  obtain ⟨ts', z', hsteps, hrest, hall⟩ :=
    h.respell hnew (rfl : Token.operandMayFollow none = _) (Position.start.after (interpreterLine s).text)
  have hfirst : Place.first ((interpreterLine s).text ++ (respelled new ts ++ z.rest)) =
      ⟨none, Position.start.after (interpreterLine s).text, respelled new ts ++ z.rest⟩ := by
    rw [Place.first, interpreterLine_sameUpToQuote (h.sameUpToQuote hnew)]
  rw [← hfirst] at hsteps
  exact ⟨ts', z', hsteps, hrest, run_eq_ok_iff_steps.mpr ⟨z', hsteps, hrest ▸ hend⟩, hall⟩

end Lexer

end AppBundler
