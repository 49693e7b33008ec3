import AppBundler.Proofs.Source.Rewriting
import AppBundler.Proofs.Source.Trimmed.Nested
/-!
# Tokens and blanks at line ends

Codes that differ in the blanks at their line ends have the same tokens, but for such blanks inside template literals
and elements. The one exception is a code in which a backslash escapes a blank at a line end: this may keep it from
being read with elements, so that it is read without them.
-/

namespace AppBundler

open Text

/-! ## Gaps -/

namespace Gap

variable {x : Except LexicalFault Gap} {c : Char} {r s : List Char}

/-- What follows a gap that is complete. -/
def rest? (x : Except LexicalFault Gap) : Option (List Char) := x.toOption.map Gap.rest

@[simp]
theorem rest?_precede (t : List Char) (x : Except LexicalFault Gap) : rest? (precede t x) = rest? x := by
  cases x <;> rfl

@[simp]
theorem rest?_withDoc (d : Option (List Char)) (x : Except LexicalFault Gap) : rest? (withDoc d x) = rest? x := by
  cases x <;> rfl

theorem rest?_eq_some_iff : rest? x = some r ↔ ∃ g, x = .ok g ∧ g.rest = r := by
  cases x <;> simp [rest?, Except.toOption]

theorem rest?_eq_none_iff : rest? x = none ↔ ∃ f, x = .error f := by
  cases x <;> simp [rest?, Except.toOption]

theorem scanBlock_cons (hend : c = '*' → r.head? ≠ some '/') (body : List Char) :
    scanBlock body (c :: r) = precede [c] (scanBlock (c :: body) r) := by
  rw [scanBlock]
  rintro t hstar rfl
  exact hend hstar rfl

/-- A reader of gaps goes on where it does, when the text is trimmed. -/
def RestTrims (f g : List Char → Except LexicalFault Gap) (s : List Char) : Prop :=
  rest? (g (trimLines s)) = (rest? (f s)).map trimLines

section Step

variable (h : ∀ s', s'.length < s.length →
  RestTrims scan scan s' ∧ RestTrims scanLine scanLine s' ∧ ∀ b b', RestTrims (scanBlock b) (scanBlock b') s')
include h

/-- Blanks and comments end at the same place. -/
theorem scan_restTrims : RestTrims scan scan s := by
  unfold RestTrims
  cases s with
  | nil => rfl
  | cons c r =>
    have hr := h r (by simp)
    by_cases hblank : isBlank c = true
    · rw [scan_blank hblank, rest?_precede, ← hr.1]
      rcases trimLines_cons_cases c r with hkept | ⟨hdropped, -⟩
      · rw [hkept, scan_blank hblank, rest?_precede]
      · rw [hdropped]
    rw [Bool.not_eq_true] at hblank
    by_cases hstop : c = '/' → r.head?.any (fun d => d = '/' || d = '*') = false
    · have hstop' : c = '/' → (trimLines r).head?.any (fun d => d = '/' || d = '*') = false := by
        rw [any_head?_trimLines]
        · exact hstop
        · intro d hd
          simp [ne_of_isBlank hd (show isBlank '/' = false by decide),
            ne_of_isBlank hd (show isBlank '*' = false by decide)]
      rw [scan_eq_nil_iff.mpr ⟨hblank, hstop⟩, rest?_eq_some_iff.mpr ⟨_, rfl, rfl⟩, Option.map_some,
        trimLines_cons_of_not_blank hblank, scan_eq_nil_iff.mpr ⟨hblank, hstop'⟩]
      rfl
    · obtain ⟨rfl, hmark⟩ : c = '/' ∧ r.head?.any (fun d => d = '/' || d = '*') = true := by simpa using hstop
      obtain ⟨d, hd, hmark⟩ := (Option.any_eq_true _ _).mp hmark
      obtain ⟨r, rfl⟩ := List.head?_eq_some_iff.mp hd
      have hbody := h r (by simp only [List.length_cons]; omega)
      rcases (by simpa using hmark : d = '/' ∨ d = '*') with rfl | rfl
      · rw [trimLines_cons_of_not_blank (by decide), trimLines_cons_of_not_blank (by decide), scan, scan,
          rest?_precede, rest?_precede, hbody.2.1]
      · rw [trimLines_cons_of_not_blank (by decide), trimLines_cons_of_not_blank (by decide), scan, scan,
          rest?_precede, rest?_precede, hbody.2.2]

/-- A line comment ends with its line. -/
theorem scanLine_restTrims : RestTrims scanLine scanLine s := by
  unfold RestTrims
  cases s with
  | nil => rfl
  | cons c r =>
    have hr := h r (by simp)
    by_cases hc : c = '\n'
    · subst hc
      rw [scanLine, if_pos rfl, rest?_precede, ← hr.1]
      rcases trimLines_cons_cases '\n' r with hkept | ⟨hdropped, -, hnil | ⟨hne, -⟩⟩
      · rw [hkept, scanLine, if_pos rfl, rest?_precede]
      · rw [hdropped, hnil]
        rfl
      · exact absurd rfl hne
    · rw [scanLine, if_neg hc, rest?_precede, ← hr.2.1]
      rcases trimLines_cons_cases c r with hkept | ⟨hdropped, -⟩
      · rw [hkept, scanLine, if_neg hc, rest?_precede]
      · rw [hdropped]

/-- A block comment ends at the same place, whatever has been read of its body. -/
theorem scanBlock_restTrims (b b' : List Char) : RestTrims (scanBlock b) (scanBlock b') s := by
  unfold RestTrims
  cases s with
  | nil => rfl
  | cons c r =>
    have hr := h r (by simp)
    by_cases hend : c = '*' ∧ r.head? = some '/'
    · obtain ⟨rfl, hslash⟩ := hend
      obtain ⟨r, rfl⟩ := List.head?_eq_some_iff.mp hslash
      have hbody := h r (by simp only [List.length_cons]; omega)
      rw [trimLines_cons_of_not_blank (by decide), trimLines_cons_of_not_blank (by decide), scanBlock, scanBlock]
      rw [rest?_withDoc, rest?_precede, rest?_withDoc, rest?_precede, hbody.1]
    · rw [scanBlock_cons (fun hstar hslash => hend ⟨hstar, hslash⟩), rest?_precede]
      rcases trimLines_cons_cases c r with hkept | ⟨hdropped, -⟩
      · rw [hkept, scanBlock_cons, rest?_precede, hr.2.2]
        exact fun hstar hslash => hend ⟨hstar, (head?_trimLines_eq_iff (by decide) r).mp hslash⟩
      · rw [hdropped, hr.2.2]

end Step

/-- All readers of gaps end at the same place. -/
theorem restTrims (s : List Char) :
    RestTrims scan scan s ∧ RestTrims scanLine scanLine s ∧ ∀ b b', RestTrims (scanBlock b) (scanBlock b') s := by
  induction hn : s.length using Nat.strongRecOn generalizing s with
  | ind n ih =>
    subst hn
    have h : ∀ s' : List Char, s'.length < s.length → RestTrims scan scan s' ∧ RestTrims scanLine scanLine s' ∧
        ∀ b b', RestTrims (scanBlock b) (scanBlock b') s' := fun s' hs' => ih s'.length hs' s' rfl
    exact ⟨scan_restTrims h, scanLine_restTrims h, scanBlock_restTrims h⟩

/-- A gap is complete in both readings or in none. -/
theorem scan_trimLines_cases (s : List Char) :
    (∃ f f', scan s = .error f ∧ scan (trimLines s) = .error f') ∨
      ∃ g g' d d' r, scan s = .ok ⟨g, d, r⟩ ∧ scan (trimLines s) = .ok ⟨g', d', trimLines r⟩ := by
  have hrest : rest? (scan (trimLines s)) = (rest? (scan s)).map trimLines := (restTrims s).1
  cases hgap : scan s with
  | error f =>
    rw [hgap] at hrest
    obtain ⟨f', hf'⟩ := rest?_eq_none_iff.mp hrest
    exact Or.inl ⟨f, f', rfl, hf'⟩
  | ok gap =>
    obtain ⟨g, d, r⟩ := gap
    rw [hgap] at hrest
    obtain ⟨⟨g', d', r'⟩, hgap', rfl⟩ := rest?_eq_some_iff.mp hrest
    exact Or.inr ⟨g, g', d, d', r, rfl, hgap'⟩

end Gap

/-! ## Lexemes -/

namespace Lexer

open Lexeme

/-- A lexeme, and the one in its place when the text is trimmed. -/
def LexemeTrimmed (a b : TokenKind × Split) : Prop :=
  b.1 = a.1 ∧ LeftTrimmed a.2 b.2 ∧ b.2.text = if a.1.isNested then trimLines a.2.text else a.2.text

variable {c : Char} {r : List Char} {x y : Scan} {kind : TokenKind}

/-- A lexeme that is read the same behind its first character. -/
theorem tagged_same (h : Tracks (EscapesBlank r) RestTrimmed x y) (hkind : kind.isNested = false) (c : Char) :
    Tracks (EscapesBlank (c :: r)) LexemeTrimmed
    ((x.precede [c]).map fun split => (kind, split)) ((y.precede [c]).map fun split => (kind, split)) := by
  cases h with
  | both h =>
    obtain rfl := h
    exact .both ⟨rfl, rfl, by rw [hkind]; rfl⟩
  | neither e e' => exact .neither _ _
  | escape h e b => exact .escape (h.append [c]) _ _

/-- A lexeme that may go over line ends. -/
theorem tagged_piece (h : Tracks (EscapesBlank r) PieceTrimmed x y) (hkind : kind.isNested = true)
    (hc : isBlank c = false) (hx : ∀ ⦃p u⦄, x = .ok ⟨p, u⟩ → r = p ++ u)
    (hy : ∀ ⦃q u⦄, y = .ok ⟨q, u⟩ → trimLines r = q ++ u) : Tracks (EscapesBlank (c :: r)) LexemeTrimmed
    ((x.precede [c]).map fun split => (kind, split)) ((y.precede [c]).map fun split => (kind, split)) := by
  cases h with
  | @both a b h =>
    obtain ⟨p, u⟩ := a
    obtain ⟨q, v⟩ := b
    obtain ⟨hsolid, hrest⟩ : EndsSolid p ∧ v = trimLines u := h
    have hq := hy rfl
    rw [hx rfl, trimLines_append hsolid, hrest] at hq
    refine .both ⟨rfl, hrest, ?_⟩
    rw [if_pos hkind]
    change c :: q = trimLines (c :: p)
    rw [trimLines_cons_of_not_blank hc, List.append_cancel_right hq]
  | neither e e' => exact .neither _ _
  | escape h e b => exact .escape (h.append [c]) _ _

/-- A lexeme is tracked. -/
theorem lexeme_tracks (jsx operand : Bool) (hc : isBlank c = false) (r : List Char) :
    Tracks (EscapesBlank (c :: r)) LexemeTrimmed (lexeme jsx operand (c :: r))
      (lexeme jsx operand (trimLines (c :: r))) := by
  have hlength : 2 * r.length + 2 ≤ 2 * (c :: r).length + 2 := by rw [List.length_cons]; omega
  have hlength' : 2 * (trimLines r).length + 2 ≤ 2 * (c :: trimLines r).length + 2 := by rw [List.length_cons]; omega
  have htracks := levelTracks jsx (2 * (c :: r).length + 2)
  have hreads := levelReadsAs jsx (Nat.le_refl (2 * (c :: r).length + 2))
  have hreads' := levelReadsAs jsx (Nat.le_refl (2 * (c :: trimLines r).length + 2))
  have hdigit := any_head?_trimLines (q := Char.isDigit)
    (fun d hd => (Bool.or_eq_false_iff.mp (isAlphanum_of_isBlank hd)).2) r
  have hnumber := number_trimLines hc r
  have hpunct := punctuator_trimLines hc r
  rw [trimLines_cons_of_not_blank hc] at hnumber hpunct ⊢
  unfold lexeme
  dsimp only
  rw [hdigit, elementFollows_trimLines, hnumber, hpunct]
  refine .ite Iff.rfl (fun hquote => ?string) fun _ => .ite Iff.rfl (fun _ => ?template) fun _ =>
    .ite Iff.rfl (fun _ => .both ⟨rfl, rfl, rfl⟩) fun _ => .ite Iff.rfl (fun _ => ?ident) fun _ =>
    .ite Iff.rfl (fun _ => ?regex) fun _ => .ite Iff.rfl (fun _ => ?element) fun _ => .both ⟨rfl, rfl, rfl⟩
  case string => exact tagged_same (stringRest_tracks hc r) rfl c
  case template =>
    exact tagged_piece (htracks.template (by omega) (by omega)) rfl hc (fun p u hp => (hreads.template hp).2.1)
      fun q u hq => (hreads'.template hq).2.1
  case ident =>
    rw [takeWhile_trimLines fun d => isIdentContinue_of_isBlank]
    exact tagged_same (.both rfl) rfl c
  case regex => exact tagged_same (regexRest_tracks false r) rfl c
  case element =>
    exact tagged_piece (htracks.element (by omega) (by omega)) rfl hc (fun p u hp => (hreads.element hp).2.1)
      fun q u hq => (hreads'.element hq).2.1

end Lexer

/-! ## Runs -/

/-- Behind a lexeme there is less to read. -/
theorem Lexer.lexeme_length_lt {jsx operand : Bool} {s p r : List Char} {kind : TokenKind} (hs : s ≠ [])
    (h : lexeme jsx operand s = .ok (kind, ⟨p, r⟩)) : r.length < s.length := by
  obtain ⟨hne, rfl⟩ := lexeme_append hs h
  have hpos := List.length_pos_of_ne_nil hne
  rw [List.length_append]
  omega

/-- A token, and the one in its place when the text is trimmed. -/
def Token.IsTrimmed (t u : Token) : Prop :=
  u.kind = t.kind ∧ u.text.toList = if t.kind.isNested then trimLines t.text.toList else t.text.toList

/-- What may follow a token does not depend on what is left of it. -/
theorem Token.IsTrimmed.operandMayFollow_eq {t u : Token} (h : t.IsTrimmed u) :
    operandMayFollow (some u) = operandMayFollow (some t) := by
  obtain ⟨hkind, htext⟩ := h
  cases hnested : t.kind.isNested with
  | true =>
    simp only [TokenKind.isNested, Bool.or_eq_true, decide_eq_true_eq] at hnested
    rcases hnested with hnested | hnested <;> simp [operandMayFollow, hkind, hnested]
  | false =>
    rw [hnested, if_neg Bool.false_ne_true] at htext
    rw [operandMayFollow, operandMayFollow, hkind, String.toList_injective htext]

namespace Lexer

variable {jsx : Bool} {n m : Nat} {last last' : Option Token} {p q : Position} {s : List Char}

/-- **Reading is tracked** token by token. -/
theorem tokensFrom_tracks (hlast : Token.operandMayFollow last' = Token.operandMayFollow last) (hn : s.length < n)
    (hm : (trimLines s).length < m) :
    Tracks (EscapesBlank s) (List.Forall₂ Token.IsTrimmed) (tokensFrom jsx n last p s)
      (tokensFrom jsx m last' q (trimLines s)) := by
  -- Both readings take a token in each round, and neither is out of rounds before its text is.
  induction n generalizing m last last' p q s with
  | zero => omega
  | succ n ih =>
    obtain ⟨m, rfl⟩ : ∃ k, m = k + 1 := ⟨m - 1, by omega⟩
    rw [tokensFrom, tokensFrom]
    rcases Gap.scan_trimLines_cases s with ⟨f, f', hgap, hgap'⟩ | ⟨g, g', doc, doc', r, hgap, hgap'⟩
    · rw [hgap, hgap']
      exact .neither _ _
    · rw [hgap, hgap']
      dsimp only
      cases r with
      | nil => exact .both .nil
      | cons c r =>
        obtain ⟨rfl, hstop, -⟩ := (Gap.readsOn s).1 hgap (List.cons_ne_nil c r)
        obtain ⟨hblank, -⟩ := Gap.scan_eq_nil_iff.mp hstop
        have hnonempty : (trimLines (c :: r)).isEmpty = false := by
          rw [trimLines_cons_of_not_blank hblank, List.isEmpty_cons]
        have hlexeme := lexeme_tracks jsx (Token.operandMayFollow last) hblank r
        rw [hnonempty, List.isEmpty_cons, if_neg Bool.false_ne_true, if_neg Bool.false_ne_true, hlast]
        -- what explains a failure behind the gap explains it from the start
        have hwider : EscapesBlank (c :: r) → EscapesBlank (g ++ c :: r) := fun h => h.append g
        generalize hx : lexeme jsx (Token.operandMayFollow last) (c :: r) = x,
          hy : lexeme jsx (Token.operandMayFollow last) (trimLines (c :: r)) = y at hlexeme
        cases hlexeme with
        | neither f f' => exact .neither _ _
        | escape h f b => exact .of_error (hwider h) _ _
        | @both a b h =>
          obtain ⟨kind, text, rest⟩ := a
          obtain ⟨kind', text', rest'⟩ := b
          obtain ⟨hkind, hrest, htext⟩ := h
          obtain rfl : rest' = trimLines rest := hrest
          obtain ⟨-, hsplit⟩ := lexeme_append (List.cons_ne_nil c r) hx
          have hlt : rest.length < (g ++ c :: r).length := by
            have hlt := lexeme_length_lt (List.cons_ne_nil c r) hx
            rw [List.length_append]
            exact Nat.lt_of_lt_of_le hlt (Nat.le_add_left _ _)
          have hlt' : (trimLines rest).length < (trimLines (g ++ c :: r)).length :=
            Nat.lt_of_lt_of_le (lexeme_length_lt (by simpa using hnonempty) hy) (length_trimLines_le g (c :: r))
          dsimp only
          generalize ht : (⟨kind, String.ofList text, String.ofList g, p.after g, doc.map String.ofList⟩ : Token) = t,
            hu : (⟨kind', String.ofList text', String.ofList g', q.after g', doc'.map String.ofList⟩ : Token) = u
          have htoken : t.IsTrimmed u := by
            rw [← ht, ← hu]
            refine ⟨hkind, ?_⟩
            rw [String.toList_ofList, String.toList_ofList]
            exact htext
          have hmore := ih (p := (p.after g).after text) (q := (q.after g').after text') htoken.operandMayFollow_eq
            (Nat.lt_of_lt_of_le hlt (Nat.le_of_lt_succ hn)) (Nat.lt_of_lt_of_le hlt' (Nat.le_of_lt_succ hm))
          generalize tokensFrom jsx n (some t) _ rest = x, tokensFrom jsx m (some u) _ (trimLines rest) = y at hmore ⊢
          cases hmore with
          | both h => exact .both (.cons htoken h)
          | neither e e' => exact .neither _ _
          | escape h e b => exact .escape (hwider (hsplit ▸ h.append text)) _ _

/-- An interpreter line ends at the same place. -/
theorem interpreterLine_trimLines (s : List Char) :
    (interpreterLine (trimLines s)).rest = trimLines (interpreterLine s).rest := by
  have hother : ∀ t : List Char, ['#', '!'].isPrefixOf t = false → interpreterLine t = ⟨[], t⟩ := by
    intro t ht
    unfold interpreterLine
    split
    case h_1 => simp [List.isPrefixOf] at ht
    case h_2 => rfl
  have hmark : ∀ c ∈ ['#', '!'], isBlank c = false :=
    List.forall_mem_cons.mpr ⟨by decide, List.forall_mem_singleton.mpr (by decide)⟩
  have hfront := isPrefixOf_trimLines (w := ['#', '!']) hmark s
  cases hs : ['#', '!'].isPrefixOf s with
  | true =>
    obtain ⟨r, rfl⟩ := List.isPrefixOf_iff_prefix.mp hs
    have hkept := trimLines_append_of_forall hmark r
    have hline := dropLine_trimLines (['#', '!'] ++ r)
    rw [hkept] at hline ⊢
    exact hline
  | false =>
    rw [hother s hs, hother (trimLines s) (hfront.trans hs)]

/-- The reading of a text is tracked. -/
theorem run_tracks (jsx : Bool) (s : List Char) :
    Tracks (EscapesBlank s) (List.Forall₂ Token.IsTrimmed) (run jsx s) (run jsx (trimLines s)) := by
  have hsplit := interpreterLine_append s
  have hlength := congrArg List.length hsplit
  have hlength' := length_trimLines_le (interpreterLine s).text (interpreterLine s).rest
  rw [List.length_append] at hlength
  rw [hsplit] at hlength'
  rw [run, run, interpreterLine_trimLines]
  refine (tokensFrom_tracks rfl (by omega) (by omega)).mono (fun h => ?_) fun _ _ => id
  exact hsplit ▸ h.append (interpreterLine s).text

/-- Whether a text may have elements does not depend on its blanks. -/
theorem mayHaveElements_trimLines (s : List Char) : mayHaveElements (trimLines s) = mayHaveElements s := by
  have hmark : ∀ c d, isBlank c = false → isBlank d = false → hasPart [c, d] (trimLines s) = hasPart [c, d] s :=
    fun c d hc hd => hasPart_trimLines hc (List.forall_mem_singleton.mpr hd) s
  rw [mayHaveElements, mayHaveElements, hmark '<' '/' (by decide) (by decide), hmark '/' '>' (by decide) (by decide)]

end Lexer

/-! ## Codes with one trimmed text -/

/-- The tokens are of one kind and have one text, but for the blanks at line ends in a template literal or an
element. -/
def Token.SameButLineEnds (t u : Token) : Prop :=
  t.kind = u.kind ∧
    if t.kind.isNested then trimLines t.text.toList = trimLines u.text.toList else t.text = u.text

/-- Tokens with one trimmed token. -/
theorem Token.IsTrimmed.sameButLineEnds {t u v : Token} (ht : t.IsTrimmed v) (hu : u.IsTrimmed v) :
    t.SameButLineEnds u := by
  obtain ⟨hkind, ht⟩ := ht
  obtain ⟨hkind', hu⟩ := hu
  have hsame := hkind.symm.trans hkind'
  refine ⟨hsame, ?_⟩
  rw [← hsame] at hu
  have htext := ht.symm.trans hu
  split
  case isTrue hnested => rwa [if_pos hnested, if_pos hnested] at htext
  case isFalse hnested =>
    rw [if_neg hnested, if_neg hnested] at htext
    exact String.toList_injective htext

namespace Lexer

variable {s t : List Char} {ts us vs : List Token}

/-- The first text is read with elements and the second one is not, and in the second one a backslash escapes a blank
at a line end. -/
def LosesElements (s t : List Char) : Prop :=
  readsElements s = true ∧ readsElements t = false ∧ EscapesBlank t

/-- Tokens that are trimmed to the same ones. -/
theorem forall₂_sameButLineEnds (hs : List.Forall₂ Token.IsTrimmed ts vs) (ht : List.Forall₂ Token.IsTrimmed us vs) :
    List.Forall₂ Token.SameButLineEnds ts us := by
  induction hs generalizing us with
  | nil =>
    cases ht
    exact .nil
  | cons hhead _ ih =>
    cases ht with
    | cons hhead' htail => exact .cons (hhead.sameButLineEnds hhead') (ih htail)

/-- A text that is read is read when it is trimmed. -/
theorem run_trimLines {jsx : Bool} (hs : run jsx s = .ok ts) :
    ∃ vs, run jsx (trimLines s) = .ok vs ∧ List.Forall₂ Token.IsTrimmed ts vs := by
  have htracks := run_tracks jsx s
  rw [hs] at htracks
  generalize run jsx (trimLines s) = x at htracks ⊢
  cases htracks with
  | both h => exact ⟨_, rfl, h⟩

/-- Of two texts with one trimmed text the one that is not read with elements escapes a blank, if the other one is. -/
theorem losesElements_of_trimLines_eq (h : trimLines s = trimLines t) (hs : readsElements s = true)
    (ht : readsElements t = false) : LosesElements s t := by
  refine ⟨hs, ht, ?_⟩
  obtain ⟨hmay, hrun⟩ := Bool.and_eq_true_iff.mp hs
  have hmay' : mayHaveElements t = true := by
    rw [← mayHaveElements_trimLines, ← h, mayHaveElements_trimLines, hmay]
  rw [readsElements, hmay', Bool.true_and] at ht
  have htracks := run_tracks true t
  cases hs : run true s with
  | error e => simp [hs, Except.isOk, Except.toBool] at hrun
  | ok ts =>
    obtain ⟨vs, hvs, -⟩ := run_trimLines hs
    cases ht' : run true t with
    | ok us => simp [ht', Except.isOk, Except.toBool] at ht
    | error e =>
      rw [← h, hvs, ht'] at htracks
      cases htracks with
      | escape hescapes => exact hescapes

/-- **Texts that are trimmed to the same text** have the same tokens but for blanks at line ends, unless one of them is
read with elements and the other one is kept from it by a blank that a backslash escapes. -/
theorem tokens_of_trimLines_eq (h : trimLines s = trimLines t) (hs : tokens s = .ok ts) (ht : tokens t = .ok us) :
    List.Forall₂ Token.SameButLineEnds ts us ∨ LosesElements s t ∨ LosesElements t s := by
  rw [tokens_eq_run] at hs ht
  by_cases hmode : readsElements s = readsElements t
  · obtain ⟨vs, hvs, hts⟩ := run_trimLines hs
    obtain ⟨vs', hvs', hus⟩ := run_trimLines ht
    rw [h, hmode, hvs'] at hvs
    obtain rfl := Except.ok.inj hvs
    exact Or.inl (forall₂_sameButLineEnds hts hus)
  · cases hs' : readsElements s with
    | false => exact Or.inr (Or.inr (losesElements_of_trimLines_eq h.symm (by simpa [hs'] using hmode) hs'))
    | true => exact Or.inr (Or.inl (losesElements_of_trimLines_eq h hs' (by simpa [hs'] using hmode)))

end Lexer

end AppBundler
