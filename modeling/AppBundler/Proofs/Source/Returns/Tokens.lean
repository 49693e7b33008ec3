import AppBundler.Proofs.Source.Returns.Lexemes
import AppBundler.Proofs.Source.Trimmed.Tokens
/-!
# Tokens and carriage returns

A text and the same text with carriage returns before line feeds have the same tokens but for such carriage returns, in
gaps, in documentation, and in template literals and elements; and they are refused with the same error.
-/

namespace AppBundler

open Text

/-! ## Gaps -/

/-- The same gap, but for carriage returns. -/
structure Gap.AddsReturns (a b : Gap) : Prop where
  text : Text.AddsReturns a.text b.text
  doc : Option.Rel Text.AddsReturns a.doc b.doc
  rest : Text.AddsReturns a.rest b.rest

namespace Gap

variable {c : Char} {p q s t b b' : List Char} {d d' : Option (List Char)} {x y : Except LexicalFault Gap}

theorem precede_alike (h : ReadsAlike AddsReturns x y) (hpq : Text.AddsReturns p q) :
    ReadsAlike AddsReturns (precede p x) (precede q y) := by
  cases h with
  | ok h => exact .ok ⟨hpq.append h.text, h.doc, h.rest⟩
  | error problem h => exact .error problem (hpq.append h)

theorem withDoc_alike (h : ReadsAlike AddsReturns x y) (hd : Option.Rel Text.AddsReturns d d') :
    ReadsAlike AddsReturns (withDoc d x) (withDoc d' y) := by
  cases h with
  | error problem h => exact .error problem h
  | @ok a b h =>
    refine .ok ⟨h.text, ?_, h.rest⟩
    have hdoc := h.doc
    dsimp only
    generalize a.doc = e at hdoc ⊢
    generalize b.doc = e' at hdoc ⊢
    cases hdoc with
    | none => simpa using hd
    | some hdoc => simpa using Option.Rel.some hdoc

/-- The documentation in a body of a comment. -/
theorem docOf_alike (h : Text.AddsReturns s t) : Option.Rel Text.AddsReturns (docOf s) (docOf t) := by
  cases h with
  | nil => exact .none
  | feed h => exact .none
  | @cons c s t h =>
    by_cases hc : c = '*'
    · subst hc
      cases h with
      | nil => exact .none
      | cons c h => exact .some (.cons c h)
      | feed h => exact .some (.feed h)
    · have hnone : ∀ r, docOf (c :: r) = none := by
        intro r
        unfold docOf
        split
        case h_1 heq => exact absurd (List.cons.inj heq).1 hc
        case h_2 => rfl
      rw [hnone, hnone]
      exact .none

/-- A reader of gaps reads a text alike. -/
def AlikeOn (f g : List Char → Except LexicalFault Gap) (s : List Char) : Prop :=
  ∀ ⦃t⦄, Text.AddsReturns s t → ReadsAlike AddsReturns (f s) (g t)

section Step

variable (h : ∀ s', s'.length < s.length → AlikeOn scan scan s' ∧ AlikeOn scanLine scanLine s' ∧
  ∀ b b', Text.AddsReturns b.reverse b'.reverse → AlikeOn (scanBlock b) (scanBlock b') s')
include h

theorem scan_alikeOn : AlikeOn scan scan s := by
  intro t hst
  cases hst with
  | nil => exact .ok ⟨.nil, .none, .nil⟩
  | @feed s t hst =>
    rw [scan_blank (by decide), scan_blank (by decide), scan_blank (by decide), precede_precede]
    exact precede_alike ((h s (by simp)).1 hst) (.feed .nil)
  | @cons c s t hst =>
    by_cases hblank : isBlank c = true
    · rw [scan_blank hblank, scan_blank hblank]
      exact precede_alike ((h s (by simp)).1 hst) (.refl [c])
    rw [Bool.not_eq_true] at hblank
    by_cases hstop : c = '/' → s.head?.any (fun d => d = '/' || d = '*') = false
    · have hstop' : c = '/' → t.head?.any (fun d => d = '/' || d = '*') = false := by
        rwa [hst.any_head? (by decide) (by decide)]
      rw [scan_eq_nil_iff.mpr ⟨hblank, hstop⟩, scan_eq_nil_iff.mpr ⟨hblank, hstop'⟩]
      exact .ok ⟨.nil, .none, .cons c hst⟩
    · obtain ⟨rfl, hmark⟩ : c = '/' ∧ s.head?.any (fun d => d = '/' || d = '*') = true := by simpa using hstop
      obtain ⟨d, hd, hmark⟩ := (Option.any_eq_true _ _).mp hmark
      obtain ⟨s, rfl⟩ := List.head?_eq_some_iff.mp hd
      have hbody := h s (by simp only [List.length_cons]; omega)
      rcases (by simpa using hmark : d = '/' ∨ d = '*') with rfl | rfl
      · obtain ⟨t, rfl, hrest⟩ := hst.exists_cons (by decide)
        exact precede_alike (hbody.2.1 hrest) (.refl _)
      · obtain ⟨t, rfl, hrest⟩ := hst.exists_cons (by decide)
        exact precede_alike (hbody.2.2 [] [] .nil hrest) (.refl _)

theorem scanLine_alikeOn : AlikeOn scanLine scanLine s := by
  intro t hst
  cases hst with
  | nil => exact .ok ⟨.nil, .none, .nil⟩
  | @feed s t hst =>
    rw [scanLine, if_pos rfl, scanLine, if_neg (by decide), scanLine, if_pos rfl, precede_precede]
    exact precede_alike ((h s (by simp)).1 hst) (.feed .nil)
  | @cons c s t hst =>
    rw [scanLine, scanLine]
    have hrest := h s (by simp)
    exact rel_ite (fun _ => precede_alike (hrest.1 hst) (.refl [c])) fun _ => precede_alike (hrest.2.1 hst) (.refl [c])

theorem scanBlock_alikeOn (hb : Text.AddsReturns b.reverse b'.reverse) : AlikeOn (scanBlock b) (scanBlock b') s := by
  intro t hst
  have hcons : ∀ c, Text.AddsReturns (c :: b).reverse (c :: b').reverse := fun c => by
    rw [List.reverse_cons, List.reverse_cons]
    exact hb.append (.refl [c])
  cases hst with
  | nil => exact .error _ .nil
  | @feed s t hst =>
    have hplain : ∀ {c : Char} {body r : List Char}, c ≠ '*' → scanBlock body (c :: r) =
        precede [c] (scanBlock (c :: body) r) := fun hc => scanBlock_cons (fun hstar => absurd hstar hc) _
    rw [hplain (by decide), hplain (by decide), hplain (by decide), precede_precede]
    refine precede_alike ((h s (by simp)).2.2 _ _ ?_ hst) (.feed .nil)
    simp only [List.reverse_cons, List.append_assoc]
    exact hb.append (.feed .nil)
  | @cons c s t hst =>
    by_cases hend : c = '*' ∧ s.head? = some '/'
    · obtain ⟨rfl, hslash⟩ := hend
      obtain ⟨s, rfl⟩ := List.head?_eq_some_iff.mp hslash
      obtain ⟨t, rfl, hrest⟩ := hst.exists_cons (by decide)
      have hbody := h s (by simp only [List.length_cons]; omega)
      rw [scanBlock, scanBlock]
      exact withDoc_alike (precede_alike (hbody.1 hrest) (.refl _)) (docOf_alike hb)
    · rw [scanBlock_cons (fun hstar hslash => hend ⟨hstar, hslash⟩), scanBlock_cons]
      · exact precede_alike ((h s (by simp)).2.2 _ _ (hcons c) hst) (.refl [c])
      · exact fun hstar hslash => hend ⟨hstar, (hst.head?_eq_iff (by decide) (by decide)).mp hslash⟩

end Step

/-- **Gaps read alike.** -/
theorem scan_alike (hst : Text.AddsReturns s t) : ReadsAlike AddsReturns (scan s) (scan t) := by
  have hall : ∀ n (s : List Char), s.length = n → AlikeOn scan scan s ∧ AlikeOn scanLine scanLine s ∧
      ∀ b b', Text.AddsReturns b.reverse b'.reverse → AlikeOn (scanBlock b) (scanBlock b') s := by
    intro n
    induction n using Nat.strongRecOn with
    | ind n ih =>
      rintro s rfl
      have h : ∀ s' : List Char, s'.length < s.length → AlikeOn scan scan s' ∧ AlikeOn scanLine scanLine s' ∧
          ∀ b b', Text.AddsReturns b.reverse b'.reverse → AlikeOn (scanBlock b) (scanBlock b') s' :=
        fun s' hs' => ih s'.length hs' s' rfl
      exact ⟨scan_alikeOn h, scanLine_alikeOn h, fun b b' hb => scanBlock_alikeOn h hb⟩
  exact (hall s.length s rfl).1 hst

end Gap

/-! ## Likeness of tokens -/

/-- Texts are taken for the same when the second is the first with carriage returns before line feeds, and these are not
seen. -/
def Likeness.returns : Likeness where
  Like s t := AddsReturns s.toList t.toList
  see s := String.ofList (dropReturns s.toList)
  refl s := .refl s.toList
  append h h' := by
    rw [String.toList_append, String.toList_append]
    exact h.append h'
  eq_or_mem h := h.eq_or_mem.imp_left String.toList_injective
  see_eq h := congrArg String.ofList h.dropReturns_eq

theorem Likeness.returns_ofList {s t : List Char} (h : AddsReturns s t) :
    Likeness.returns.Like (String.ofList s) (String.ofList t) := by
  change AddsReturns _ _
  rwa [String.toList_ofList, String.toList_ofList]

/-- What is seen of the text of a template literal. -/
theorem Literal.template?_alike {p q : List Char} (h : AddsReturns (p ++ ['\x60']) q) :
    (template? (String.ofList ('\x60' :: (p ++ ['\x60'])))).map Likeness.returns.see =
      (template? (String.ofList ('\x60' :: q))).map Likeness.returns.see := by
  obtain ⟨q, rfl, hinner⟩ := h.exists_concat (by decide)
  have hpart : hasPart ['$', '{'] q = hasPart ['$', '{'] p := hinner.hasPart (by decide) (by decide) (by decide)
  have htemplate : ∀ u : List Char, template? (String.ofList ('\x60' :: (u ++ ['\x60']))) =
      if hasPart ['$', '{'] u then none else some (String.ofList u) := fun u => by simp [template?]
  rw [htemplate, htemplate, hpart]
  split
  case isTrue => rfl
  case isFalse => exact congrArg some (Likeness.returns.see_eq (Likeness.returns_ofList hinner))

/-! ## Lexemes -/

namespace Lexeme

/-- A template literal ends with its backtick. -/
theorem templateRest_ends {jsx : Bool} {n : Nat} {s p r : List Char} (h : templateRest jsx n s = .ok ⟨p, r⟩) :
    ∃ q, p = q ++ ['\x60'] := by
  induction n generalizing s p with
  | zero => cases h
  | succ n ih =>
    cases s with
    | nil => cases h
    | cons c s =>
      have behind {text : List Char} {x : Scan} (hx : ∀ p, x = .ok ⟨p, r⟩ → ∃ q, p = q ++ ['\x60'])
          (h : x.precede text = .ok ⟨p, r⟩) : ∃ q, p = q ++ ['\x60'] := by
        obtain ⟨p, hp, rfl⟩ := Scan.precede_eq_ok_iff.mp h
        obtain ⟨q, rfl⟩ := hx p hp
        exact ⟨text ++ q, (List.append_assoc text q _).symm⟩
      by_cases hback : c = '\\'
      · subst hback
        cases s with
        | nil => cases h
        | cons d s => exact behind (fun _ => ih) h
      by_cases hexpr : c = '$' ∧ s.head? = some '{'
      · obtain ⟨rfl, hopen⟩ := hexpr
        obtain ⟨s, rfl⟩ := List.head?_eq_some_iff.mp hopen
        refine behind (fun p hp => ?_) h
        obtain ⟨q₁, q₂, rest, -, hq, rfl⟩ := Scan.andThen_eq_ok_iff.mp hp
        obtain ⟨q, rfl⟩ := ih hq
        exact ⟨q₁ ++ q, (List.append_assoc q₁ q _).symm⟩
      · rw [templateRest_cons hback fun hdollar hopen => hexpr ⟨hdollar, hopen⟩] at h
        split at h
        case isTrue htick =>
          cases h
          exact ⟨[], by rw [htick]; rfl⟩
        case isFalse => exact behind (fun _ => ih) h

end Lexeme

namespace Lexer

open Lexeme

/-- The same lexeme, but for carriage returns in a template literal or an element. -/
structure LexemeAlike (a b : TokenKind × Split) : Prop where
  kind : a.1 = b.1
  split : a.2.AddsReturns b.2
  flat : a.1.isNested = false → a.2.text = b.2.text
  template : a.1 = .template → (Literal.template? (String.ofList a.2.text)).map Likeness.returns.see =
    (Literal.template? (String.ofList b.2.text)).map Likeness.returns.see

variable {c : Char} {s t : List Char} {x y : Scan} {kind : TokenKind}

theorem LexemeAlike.of_same {a b : Split} (h : a.SameText b) (hkind : kind ≠ .template) : LexemeAlike (kind, a) (kind, b) :=
  ⟨rfl, h.addsReturns, fun _ => h.1, fun heq => absurd heq hkind⟩

/-- A lexeme that stays in its line. -/
theorem tagged_flat (h : ReadsAlike Split.SameText x y) (hkind : kind ≠ .template) (c : Char) :
    ReadsAlike LexemeAlike ((x.precede [c]).map fun split => (kind, split)) ((y.precede [c]).map fun split => (kind, split)) :=
  (h.behind_same [c]).map fun _ _ h => .of_same h hkind

/-- **A lexeme reads alike.** -/
theorem lexeme_alike (jsx operand : Bool) (h : AddsReturns s t) (hs : EscapesNoFeed (c :: s)) (hc : isBlank c = false) :
    ReadsAlike LexemeAlike (lexeme jsx operand (c :: s)) (lexeme jsx operand (c :: t)) := by
  have hlevel := levelAlike jsx (2 * (c :: s).length + 2)
  have hdigit : t.head?.any Char.isDigit = s.head?.any Char.isDigit := h.any_head? (by decide) (by decide)
  unfold lexeme
  dsimp only
  rw [hdigit, elementFollows_alike h]
  refine rel_ite (fun hquote => ?string) fun _ => rel_ite (fun htick => ?template) fun _ =>
    rel_ite (fun _ => .ok (.of_same (number_alike h) (by decide))) fun _ => rel_ite (fun _ => ?ident) fun _ =>
    rel_ite (fun _ => ?regex) fun _ => rel_ite (fun _ => ?element) fun _ => .ok (.of_same (punctuator_alike h) (by decide))
  case string =>
    exact tagged_flat (stringRest_alike (Ne.symm (ne_of_isBlank (by decide) hc)) h hs.tail) (by decide) c
  case template =>
    subst htick
    have hrest := hlevel.template h hs.tail (m := 2 * ('\x60' :: t).length + 2) (by simp only [List.length_cons]; omega)
      (by simp only [List.length_cons]; omega)
    generalize hx : templateRest jsx (2 * ('\x60' :: s).length + 2) s = x at hrest ⊢
    generalize templateRest jsx (2 * ('\x60' :: t).length + 2) t = y at hrest ⊢
    cases hrest with
    | error problem h => exact .error problem ((AddsReturns.refl ['\x60']).append h)
    | @ok a b h =>
      obtain ⟨p, r⟩ := a
      obtain ⟨q, rfl⟩ := templateRest_ends hx
      exact .ok ⟨rfl, ⟨.cons _ h.text, h.rest⟩, fun hflat => absurd (show true = false from hflat) (by decide),
        fun _ => Literal.template?_alike h.text⟩
  case ident =>
    have hsame := takeWhile_alike (isIdentContinue_of_isBlank (by decide)) (isIdentContinue_of_isBlank (by decide)) h
    exact tagged_flat (.ok hsame) (by decide) c
  case regex => exact tagged_flat (regexRest_alike false h hs.tail) (by decide) c
  case element =>
    refine ((hlevel.element h hs.tail ?_ ?_).behind [c]).map fun a b h => ?_
    · simp only [List.length_cons]; omega
    · simp only [List.length_cons]; omega
    · exact ⟨rfl, h, fun hflat => absurd (show true = false from hflat) (by decide),
        fun heq => absurd (show TokenKind.jsx = .template from heq) (by decide)⟩

end Lexer

/-! ## Places -/

namespace Position

variable {p q : Position} {s t : List Char}

/-- Carriage returns before line feeds do not change the places behind these. -/
theorem Alike.after_returns (h : p.Alike q) (hst : AddsReturns s t) : (p.after s).Alike (q.after t) := by
  induction hst generalizing p q with
  | nil => exact h
  | cons c _ ih => exact ih (h.after [c])
  | @feed s t _ ih => exact ih (alike_after_lineFeed (q := q.step '\r') h.1 [])

theorem line_after (hs : '\n' ∉ s) : (p.after s).line = p.line := by
  induction s generalizing p with
  | nil => rfl
  | cons c s ih =>
    obtain ⟨hc, hs⟩ : '\n' ≠ c ∧ '\n' ∉ s := by simpa using hs
    rw [after, List.foldl_cons, ← after, ih hs, step, if_neg (Ne.symm hc)]

end Position

/-! ## Runs -/

/-- Both texts have the same tokens, but for carriage returns, or they are refused with the same error. -/
inductive TokenizedAlike : Except SyntaxError (List Token) → Except SyntaxError (List Token) → Prop where
  | ok {ts us : List Token} (h : List.Forall₂ (Token.Like .returns) ts us) : TokenizedAlike (.ok ts) (.ok us)
  | error (e : SyntaxError) : TokenizedAlike (.error e) (.error e)

/-- What may follow a token does not depend on what is kept of it. -/
theorem Token.TraceLike.operandMayFollow_eq {L : Likeness} {t u : Token} (h : t.TraceLike L u) :
    operandMayFollow (some u) = operandMayFollow (some t) := by
  rw [operandMayFollow, operandMayFollow, ← h.kind]
  cases hkind : t.kind with
  | ident => rw [h.flat (by rw [hkind]; rfl)]
  | punct => rw [h.flat (by rw [hkind]; rfl)]
  | _ => rfl

namespace Lexer

variable {jsx : Bool} {n m : Nat} {last last' : Option Token} {p q : Position} {s t : List Char}

theorem errorAt_alike (h : p.Alike q) (hst : AddsReturns s t) (problem : SyntaxProblem) :
    errorAt p ⟨problem, s⟩ = errorAt q ⟨problem, t⟩ := by
  obtain ⟨hline, hcolumn⟩ := h.after_returns hst
  simp only [errorAt, hline, hcolumn]

/-- **Tokens read alike**, one after the other. -/
theorem tokensFrom_alike (hlast : Token.operandMayFollow last' = Token.operandMayFollow last) (hp : p.Alike q)
    (hst : AddsReturns s t) (hs : EscapesNoFeed s) (hn : s.length < n) (hm : t.length < m) :
    TokenizedAlike (tokensFrom jsx n last p s) (tokensFrom jsx m last' q t) := by
  -- Both readings take a token in each round, and neither is out of rounds before its text is.
  induction n generalizing m last last' p q s t with
  | zero => omega
  | succ n ih =>
    obtain ⟨m, rfl⟩ : ∃ k, m = k + 1 := ⟨m - 1, by omega⟩
    rw [tokensFrom, tokensFrom]
    have hgap := Gap.scan_alike hst
    generalize hx : Gap.scan s = x, hy : Gap.scan t = y at hgap
    cases hgap with
    | error problem h =>
      dsimp only
      rw [errorAt_alike hp h]
      exact .error _
    | @ok a b h =>
      obtain ⟨g, doc, r⟩ := a
      obtain ⟨g', doc', r'⟩ := b
      obtain ⟨htext, hdoc, hrest⟩ := h
      dsimp only at htext hdoc hrest ⊢
      cases r with
      | nil =>
        cases hrest
        exact .ok .nil
      | cons c r =>
        obtain ⟨rfl, hstop, -⟩ := (Gap.readsOn s).1 hx (List.cons_ne_nil c r)
        obtain ⟨hblank, -⟩ := Gap.scan_eq_nil_iff.mp hstop
        obtain ⟨r', rfl, hr⟩ := hrest.exists_cons (ne_of_isBlank (by decide) hblank).symm
        obtain ⟨rfl, -, -⟩ := (Gap.readsOn t).1 hy (List.cons_ne_nil c r')
        have hstart := hp.after_returns htext
        have hlexeme := lexeme_alike jsx (Token.operandMayFollow last) hr hs.of_append hblank
        rw [List.isEmpty_cons, List.isEmpty_cons, if_neg Bool.false_ne_true, if_neg Bool.false_ne_true, hlast]
        generalize hx : lexeme jsx (Token.operandMayFollow last) (c :: r) = x,
          hy : lexeme jsx (Token.operandMayFollow last) (c :: r') = y at hlexeme
        cases hlexeme with
        | error problem h =>
          dsimp only
          rw [errorAt_alike hstart h]
          exact .error _
        | @ok a b h =>
          obtain ⟨kind, text, rest⟩ := a
          obtain ⟨kind', text', rest'⟩ := b
          obtain ⟨hkind, hsplit, hflat, htemplate⟩ := h
          have hbehind : AddsReturns rest rest' := hsplit.rest
          have hlt := lexeme_length_lt (List.cons_ne_nil c r) hx
          have hlt' := lexeme_length_lt (List.cons_ne_nil c r') hy
          obtain ⟨-, hread⟩ := lexeme_append (List.cons_ne_nil c r) hx
          rw [List.length_append] at hn hm
          dsimp only at hkind hflat htemplate ⊢
          generalize hu : (⟨kind, String.ofList text, String.ofList g, p.after g, doc.map String.ofList⟩ : Token) = u,
            hv : (⟨kind', String.ofList text', String.ofList g', q.after g', doc'.map String.ofList⟩ : Token) = v
          have htoken : u.Like .returns v := by
            rw [← hu, ← hv]
            refine ⟨⟨hkind, Likeness.returns_ofList hsplit.text, fun hnested => ?_, hstart⟩,
              Likeness.returns_ofList htext, ?_, htemplate⟩
            · exact congrArg String.ofList (hflat hnested)
            · cases hdoc with
              | none => rfl
              | some hdoc => exact congrArg some (Likeness.returns.see_eq (Likeness.returns_ofList hdoc))
          have hmore := ih (p := (p.after g).after text) (q := (q.after g').after text') (m := m)
            htoken.operandMayFollow_eq (hstart.after_returns hsplit.text) hbehind
            (by rw [hread] at hs; exact hs.of_append.of_append) (by omega) (by omega)
          generalize tokensFrom jsx n (some u) _ rest = x, tokensFrom jsx m (some v) _ rest' = y at hmore ⊢
          cases hmore with
          | error e => exact .error e
          | ok h => exact .ok (.cons htoken h)

/-- Before a line feed only the line matters, and what is counted of bytes. -/
theorem tokensFrom_lineFeed (h : p.step '\n' = q.step '\n') (s : List Char) :
    tokensFrom jsx (n + 1) last p ('\n' :: s) = tokensFrom jsx (n + 1) last q ('\n' :: s) := by
  have hafter (g : List Char) : p.after ('\n' :: g) = q.after ('\n' :: g) := congrArg (·.after g) h
  rw [tokensFrom, tokensFrom, Gap.scan_blank (by decide)]
  cases Gap.scan s with
  | error f => simp only [Gap.precede, errorAt, List.singleton_append, hafter]
  | ok gap => simp only [Gap.precede, List.singleton_append, hafter]

/-- Behind an interpreter line both texts are at their ends, or at the same line feed. -/
theorem interpreterLine_alike (hst : AddsReturns s t) :
    ((interpreterLine s).text = (interpreterLine t).text ∧ AddsReturns (interpreterLine s).rest (interpreterLine t).rest) ∨
      '\n' ∉ (interpreterLine s).text ∧ '\n' ∉ (interpreterLine t).text ∧
        ∃ u v, (interpreterLine s).rest = '\n' :: u ∧ (interpreterLine t).rest = '\n' :: v ∧ AddsReturns u v := by
  by_cases hmark : ['#', '!'] <+: s
  · obtain ⟨r, rfl⟩ := hmark
    obtain ⟨r', rfl, hr⟩ := hst.exists_append (by decide)
    have hline : ∀ u, interpreterLine (['#', '!'] ++ u) = Lexeme.lineRest (['#', '!'] ++ u) := fun _ => rfl
    rw [hline, hline]
    -- the line ends at the first line feed, before which a carriage return may stand in the second text
    have hends {s t : List Char} (hst : AddsReturns s t) : ((Lexeme.lineRest s).text = (Lexeme.lineRest t).text ∧
        AddsReturns (Lexeme.lineRest s).rest (Lexeme.lineRest t).rest) ∨
          ∃ u v, (Lexeme.lineRest s).rest = '\n' :: u ∧ (Lexeme.lineRest t).rest = '\n' :: v ∧ AddsReturns u v := by
      induction hst with
      | nil => exact .inl ⟨rfl, .nil⟩
      | @cons c s t hst ih =>
        by_cases hc : c = '\n'
        · subst hc
          exact .inl ⟨rfl, .cons '\n' hst⟩
        · simp only [Lexeme.lineRest, Lexeme.takeWhile, ne_eq, hc, not_false_eq_true, decide_true, List.takeWhile_cons_of_pos,
            List.dropWhile_cons_of_pos] at ih ⊢
          exact ih.imp_left fun h => ⟨congrArg (c :: ·) h.1, h.2⟩
      | @feed s t hst _ => exact .inr ⟨s, t, rfl, rfl, hst⟩
    have hplain (u : List Char) : '\n' ∉ (Lexeme.lineRest u).text := fun hmem => by
      simpa using List.mem_takeWhile_imp hmem
    exact (hends hst).imp_right fun h => ⟨hplain _, hplain _, h⟩
  · have hmark' : ¬ ['#', '!'] <+: t := by
      rw [← List.isPrefixOf_iff_prefix, hst.isPrefixOf (by decide) (by decide), List.isPrefixOf_iff_prefix]
      exact hmark
    rw [interpreterLine_of_not_mark hmark, interpreterLine_of_not_mark hmark']
    exact .inl ⟨rfl, hst⟩

/-- The reading of a text. -/
theorem run_alike (jsx : Bool) (hst : AddsReturns s t) (hs : EscapesNoFeed s) : TokenizedAlike (run jsx s) (run jsx t) := by
  have hsplit := interpreterLine_append s
  have hlength := congrArg List.length hsplit
  have hlength' := congrArg List.length (interpreterLine_append t)
  rw [List.length_append] at hlength hlength'
  have hrest : EscapesNoFeed (interpreterLine s).rest := by
    rw [← hsplit] at hs
    exact hs.of_append
  rw [run, run]
  rcases interpreterLine_alike hst with ⟨htext, halike⟩ | ⟨hline, hline', u, v, hu, hv, halike⟩
  · rw [htext]
    exact tokensFrom_alike rfl ⟨rfl, rfl⟩ halike hrest (by omega) (by omega)
  · rw [hu] at hrest hlength ⊢
    rw [hv] at hlength' ⊢
    generalize hp : Position.start.after (interpreterLine s).text = p,
      hq : Position.start.after (interpreterLine t).text = q
    have hlines : p.line = q.line := by
      rw [← hp, ← hq, Position.line_after hline, Position.line_after hline']
    rw [tokensFrom_lineFeed (q := ⟨q.offset, q.line, p.column⟩) (p := q) rfl]
    exact tokensFrom_alike rfl ⟨hlines, rfl⟩ (.cons '\n' halike) hrest (by omega) (by omega)

/-- Whether a text may have elements does not depend on carriage returns. -/
theorem mayHaveElements_alike (hst : AddsReturns s t) : mayHaveElements t = mayHaveElements s := by
  rw [mayHaveElements, mayHaveElements, hst.hasPart (by decide) (by decide) (by decide),
    hst.hasPart (by decide) (by decide) (by decide)]

/-- **A text and the same text with carriage returns** have the same tokens but for those, or are refused with the same
error. -/
theorem tokens_alike (hst : AddsReturns s t) (hs : EscapesNoFeed s) : TokenizedAlike (tokens s) (tokens t) := by
  rw [tokens, tokens, mayHaveElements_alike hst]
  refine rel_ite (fun _ => ?_) fun _ => run_alike false hst hs
  have helements := run_alike true hst hs
  generalize run true s = x, run true t = y at helements ⊢
  cases helements with
  | ok h => exact .ok h
  | error e => exact run_alike false hst hs

end Lexer

end AppBundler
