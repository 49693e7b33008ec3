import AppBundler.Proofs.Source.Elements
import AppBundler.Proofs.Source.Joining
import AppBundler.Proofs.Source.Words
/-!
# Texts between braces

A brace is a token of its own, and behind an opening one all is read as at the beginning of a text. So a text that ends
before its closing brace has the same tokens wherever it is put between two braces. Whether the whole is read with
elements is told by that text alone, as long as nothing behind the brace could close what is left open in it.
-/

namespace AppBundler

open Lexeme

theorem toList_between (a e b : String) : (a ++ e ++ b).toList = a.toList ++ (e.toList ++ b.toList) := by
  rw [String.toList_append, String.toList_append, List.append_assoc]

/-- A character stands in the first of two texts or in the second one. -/
theorem append_eq_cons_cases {a b s t : List Char} {c : Char} (h : a ++ b = s ++ c :: t) :
    (∃ u, a = s ++ c :: u ∧ t = u ++ b) ∨ ∃ u, s = a ++ u ∧ b = u ++ c :: t := by
  rcases List.append_eq_append_iff.mp h with ⟨u, hs, hb⟩ | ⟨u, ha, hb⟩
  · exact Or.inr ⟨u, hs, hb⟩
  · cases u with
    | nil => exact Or.inr ⟨[], by simpa using ha.symm, hb.symm⟩
    | cons e u =>
      obtain ⟨rfl, ht⟩ := List.cons.inj hb
      exact Or.inl ⟨u, ha, ht⟩

/-! ## Gaps before a brace -/

namespace Gap

variable {g p s b body : List Char} {d : Option (List Char)} {c : Char}

theorem scan_brace (hc : c = '\x7b' ∨ c = '\x7d') (s : List Char) : scan (c :: s) = .ok ⟨[], none, c :: s⟩ := by
  rw [scan_eq_nil_iff]
  rcases hc with rfl | rfl
  all_goals exact ⟨by decide, fun hslash => absurd hslash (by decide)⟩

theorem scanLine_open (hs : '\n' ∉ s) : scanLine s = .ok ⟨s, none, []⟩ := by
  induction s with
  | nil => rfl
  | cons c s ih =>
    obtain ⟨hc, hs⟩ := not_or.mp (mt List.mem_cons.mpr hs)
    rw [scanLine, if_neg (Ne.symm hc), ih hs]
    rfl

/-- A gap that ends in a line comment takes all that follows on the line into it. -/
def Swallows (g : List Char) : Prop := ∀ s, '\n' ∉ s → ∃ d, scan (g ++ s) = .ok ⟨g ++ s, d, []⟩

theorem Swallows.behind (h : Swallows g) (hp : ∀ s, scan (p ++ (g ++ s)) = precede p (withDoc d (scan (g ++ s)))) :
    Swallows (p ++ g) := by
  intro s hs
  obtain ⟨d', hg⟩ := h s hs
  refine ⟨d'.or d, ?_⟩
  rw [List.append_assoc, hp, hg]
  rfl

/-- **A gap at the end of a text is closed**, or it ends in a line comment. -/
theorem isGap_or_swallows (h : IsGap true g d) : IsGap false g d ∨ Swallows g := by
  induction h with
  | nil => exact Or.inl .nil
  | @blank c g d hc _ ih =>
    refine ih.imp (.blank hc) fun hg => ?_
    exact hg.behind (p := [c]) (d := none) fun s => by rw [withDoc_none]; exact scan_blank hc (g ++ s)
  | @line body g d hbody _ ih =>
    refine ih.imp (.line hbody) fun hg => ?_
    refine hg.behind (p := '/' :: '/' :: body) (d := none) fun s => ?_
    rw [withDoc_none]
    exact scan_line hbody (g ++ s)
  | @lastLine body hbody _ =>
    refine Or.inr fun s hs => ⟨none, ?_⟩
    have hopen := scanLine_open (s := body ++ s) (by simp [hbody, hs])
    rw [List.cons_append, List.cons_append, scan, hopen]
    rfl
  | @block body g d hbody hplain _ ih =>
    refine ih.imp (.block hbody hplain) fun hg => ?_
    have hshape : '/' :: '*' :: (body ++ '*' :: '/' :: g) = '/' :: '*' :: (body ++ ['*', '/']) ++ g := by simp
    rw [hshape]
    refine hg.behind (d := docOf body) fun s => ?_
    simpa using scan_block hbody (g ++ s)
  | @doc body g d hbody hne _ ih =>
    refine ih.imp (.doc hbody hne) fun hg => ?_
    have hshape : '/' :: '*' :: '*' :: (body ++ '*' :: '/' :: g) = '/' :: '*' :: ('*' :: body ++ ['*', '/']) ++ g := by simp
    rw [hshape]
    refine hg.behind (d := docOf ('*' :: body)) fun s => ?_
    simpa using scan_block hbody (g ++ s)

/-- A gap up to the end of a text is read as one. -/
theorem exists_scan_of_isGap (h : IsGap true g d) : ∃ d', scan g = .ok ⟨g, d', []⟩ := by
  rcases isGap_or_swallows h with hclosed | hswallows
  · have hscan := goesBefore_of_isGap hclosed []
    rw [List.append_nil] at hscan
    exact ⟨d, by rw [hscan]; simp [scan, withDoc, precede]⟩
  · obtain ⟨d', hscan⟩ := hswallows [] List.not_mem_nil
    rw [List.append_nil] at hscan
    exact ⟨d', hscan⟩

/-! ## Gaps with a brace inside -/

/-- All of a text up to a brace in it, and the brace, is a gap. -/
def EndsInside (s : List Char) : Prop := ∃ d, scan (s ++ ['\x7d']) = .ok ⟨s ++ ['\x7d'], d, []⟩

theorem EndsInside.behind (h : EndsInside s) (hp : scan (p ++ (s ++ ['\x7d'])) = precede p (withDoc d (scan (s ++ ['\x7d'])))) :
    EndsInside (p ++ s) := by
  obtain ⟨d', hs⟩ := h
  refine ⟨d'.or d, ?_⟩
  rw [List.append_assoc, hp, hs]
  rfl

/-- A brace in a line comment. -/
theorem endsInside_line (hs : '\n' ∉ s) : EndsInside ('/' :: '/' :: s) := by
  refine ⟨none, ?_⟩
  rw [List.cons_append, List.cons_append, scan, scanLine_open (by simp [hs])]
  rfl

/-- What two characters of a comment begin, they begin up to a brace behind them. -/
theorem exists_behind {x y : Char} {t : List Char} (hx : x ≠ '\x7d') (hy : y ≠ '\x7d') (h : x :: y :: t = s ++ '\x7d' :: b) :
    ∃ s', s = x :: y :: s' ∧ t = s' ++ '\x7d' :: b := by
  match s, h with
  | [], h => exact absurd (List.cons.inj h).1 hx
  | [_], h => exact absurd (List.cons.inj (List.cons.inj h).2).1 hy
  | _ :: _ :: s', h =>
    obtain ⟨hfirst, hrest⟩ := List.cons.inj h
    obtain ⟨hsecond, hrest⟩ := List.cons.inj hrest
    exact ⟨s', by rw [hfirst, hsecond], hrest⟩

/-- A brace behind a block comment, or in one that ends behind the brace. -/
theorem endsInside_block (hbody : ¬ ['*', '/'] <:+: body) (hg : '/' :: '*' :: (body ++ '*' :: '/' :: g) = s ++ '\x7d' :: b)
    (hb : '/' ∉ b) (h : ∀ s, g = s ++ '\x7d' :: b → EndsInside s) : EndsInside s := by
  obtain ⟨s, rfl, hbehind⟩ := exists_behind (by decide) (by decide) hg
  rcases append_eq_cons_cases hbehind with ⟨t, rfl, rfl⟩ | ⟨t, rfl, ht⟩
  · exact absurd (by simp) hb
  · obtain ⟨s, rfl, hs⟩ := exists_behind (by decide) (by decide) ht
    have hinside := (h s hs).behind (p := '/' :: '*' :: (body ++ ['*', '/'])) (d := docOf body)
      (by simpa using scan_block hbody (s ++ ['\x7d']))
    simpa using hinside

/-- **A gap that goes over a brace** is one up to the brace, when no comment could end behind it. -/
theorem endsInside_of_isGap {sourceEnds : Bool} (h : IsGap sourceEnds g d) (hg : g = s ++ '\x7d' :: b) (hb : '/' ∉ b) :
    EndsInside s := by
  induction h generalizing s with
  | nil => simp at hg
  | @blank c g d hc _ ih =>
    cases s with
    | nil =>
      obtain ⟨rfl, -⟩ := List.cons.inj hg
      exact absurd hc (by decide)
    | cons e s =>
      obtain ⟨rfl, hs⟩ := List.cons.inj hg
      exact (ih hs).behind (p := [c]) (d := none) (by rw [withDoc_none]; exact scan_blank hc _)
  | @line body g d hbody _ ih =>
    obtain ⟨s, rfl, hbehind⟩ := exists_behind (by decide) (by decide) hg
    rcases append_eq_cons_cases hbehind with ⟨t, rfl, -⟩ | ⟨t, rfl, ht⟩
    · exact endsInside_line fun hs => hbody (List.mem_append_left _ hs)
    · have hline := (ih ht).behind (p := '/' :: '/' :: body) (d := none)
      rw [withDoc_none] at hline
      refine hline ?_
      cases t with
      | nil => exact absurd (List.cons.inj ht).1 (by decide)
      | cons e t =>
        obtain ⟨rfl, -⟩ := List.cons.inj ht
        exact scan_line hbody (t ++ ['\x7d'])
  | @lastLine body hbody _ =>
    obtain ⟨s, rfl, rfl⟩ := exists_behind (by decide) (by decide) hg
    exact endsInside_line fun hs => hbody (List.mem_append_left _ hs)
  | block hbody _ _ ih => exact endsInside_block hbody hg hb fun s => ih
  | doc hbody _ _ ih => exact endsInside_block hbody hg hb fun s => ih

end Gap

/-! ## Lexemes with a brace inside -/

namespace Lexeme

variable {s p r a b : List Char}

/-- The characters that lexemes with other characters inside end with. -/
def closers : List Char := ['"', '\'', '\x60', '/', '>']

/-- A lexeme that ends with a closer, but for the flags of a regular expression. -/
def EndsClosed (p : List Char) : Prop :=
  ∃ a c flags, p = a ++ c :: flags ∧ c ∈ closers ∧ ∀ d ∈ flags, isIdentContinue d = true

namespace EndsClosed

theorem behind (h : EndsClosed p) (front : List Char) : EndsClosed (front ++ p) := by
  obtain ⟨a, c, flags, rfl, hc, hflags⟩ := h
  exact ⟨front ++ a, c, flags, by simp, hc, hflags⟩

theorem last {c : Char} (hc : c ∈ closers) (a : List Char) : EndsClosed (a ++ [c]) := ⟨a, c, [], rfl, hc, nofun⟩

/-- Behind a brace in it there is a closer. -/
theorem exists_behind_brace (h : EndsClosed (a ++ '\x7d' :: b)) : ∃ c ∈ closers, c ∈ b := by
  obtain ⟨a', c, flags, heq, hc, hflags⟩ := h
  have hother : c ≠ '\x7d' := by
    rintro rfl
    revert hc
    decide
  rcases append_eq_cons_cases heq.symm with ⟨t, rfl, rfl⟩ | ⟨t, rfl, ht⟩
  · exact ⟨c, hc, by simp⟩
  · cases t with
    | nil => exact absurd (List.cons.inj ht).1 hother
    | cons e t =>
      have hflag := hflags '\x7d' (by rw [(List.cons.inj ht).2]; simp)
      rw [(endsLexeme_brace (Or.inr rfl)).name] at hflag
      cases hflag

end EndsClosed

theorem templateRest_endsClosed {jsx : Bool} {n : Nat} (h : templateRest jsx n s = .ok ⟨p, r⟩) : EndsClosed p := by
  induction n generalizing s p with
  | zero => cases h
  | succ n ih =>
    unfold templateRest at h
    split at h
    case h_1 | h_2 | h_3 => cases h
    case h_4 c t heq =>
      cases heq
      obtain ⟨q, hq, rfl⟩ := Scan.precede_eq_ok_iff.mp h
      exact (ih hq).behind _
    case h_5 t heq =>
      cases heq
      obtain ⟨q, hq, rfl⟩ := Scan.precede_eq_ok_iff.mp h
      obtain ⟨q₁, q₂, rest, -, hnext, rfl⟩ := Scan.andThen_eq_ok_iff.mp hq
      exact ((ih hnext).behind _).behind _
    case h_6 c t _ _ _ heq =>
      cases heq
      by_cases hc : c = '\x60'
      · rw [if_pos hc] at h
        cases h
        exact .last (by rw [hc]; decide) []
      · rw [if_neg hc] at h
        obtain ⟨q, hq, rfl⟩ := Scan.precede_eq_ok_iff.mp h
        exact (ih hq).behind _

theorem regexRest_endsClosed {inClass : Bool} (h : regexRest inClass s = .ok ⟨p, r⟩) : EndsClosed p := by
  fun_induction regexRest inClass s generalizing p with
  | case1 => cases h
  | case2 => cases h
  | case4 => cases h
  | case7 inClass c s _ _ _ _ _ hend =>
    rw [Bool.and_eq_true, decide_eq_true_eq] at hend
    obtain ⟨rfl, -⟩ := hend
    obtain ⟨q, hq, rfl⟩ := Scan.precede_eq_ok_iff.mp h
    obtain ⟨-, hflags, -⟩ := takeWhile_eq_iff.mp (Except.ok.inj hq)
    exact ⟨[], '/', q, rfl, by decide, hflags⟩
  | case3 inClass c s ih | case5 inClass s _ _ _ ih | case6 inClass s _ _ _ _ ih | case8 inClass c s _ _ _ _ _ _ ih =>
    obtain ⟨q, hq, rfl⟩ := Scan.precede_eq_ok_iff.mp h
    exact (ih hq).behind _

/-- No brace belongs to a number. -/
theorem brace_not_mem_numberRest (hex : Bool) (last : Char) (s : List Char) : '\x7d' ∉ (numberRest hex last s).text := by
  induction s generalizing last with
  | nil => simp [numberRest]
  | cons c s ih =>
    rw [numberRest]
    split
    · rename_i hc
      refine not_or.mpr ⟨?_, ih c⟩ ∘ List.mem_cons.mp
      rintro rfl
      have hstop := (endsLexeme_brace (Or.inr rfl)).number hex last
      rw [continuesNumber] at hstop
      rw [hstop] at hc
      cases hc
    · simp

end Lexeme

namespace Lexer

variable {jsx operand : Bool} {kind : TokenKind} {p r a b : List Char}

/-- **A lexeme with a brace in it** is the brace, or it ends with a closer. -/
theorem lexeme_brace_or_endsClosed {s : List Char} (h : lexeme jsx operand s = .ok (kind, ⟨p, r⟩)) (hp : '\x7d' ∈ p) :
    p = ['\x7d'] ∨ EndsClosed p := by
  have hbrace := endsLexeme_brace (c := '\x7d') (Or.inr rfl)
  cases s with
  | nil =>
    cases h
    cases hp
  | cons c s =>
  unfold lexeme at h
  dsimp only at h
  split at h
  case isTrue hquote =>
    obtain ⟨-, q, hq, rfl⟩ := tagged_eq_ok_iff.mp h
    obtain ⟨body, rfl, -⟩ := exists_body_of_stringRest hq
    have hclose : c ∈ closers := by
      rcases (by simpa using hquote : c = '"' ∨ c = '\'') with rfl | rfl <;> decide
    exact Or.inr (.last hclose (c :: body))
  split at h
  case isTrue htick =>
    obtain ⟨-, q, hq, rfl⟩ := tagged_eq_ok_iff.mp h
    exact Or.inr ((templateRest_endsClosed hq).behind [c])
  split at h
  case isTrue hnumber =>
    obtain ⟨-, hnum⟩ := Prod.mk.inj (Except.ok.inj h)
    rw [number_cons] at hnum
    obtain ⟨rfl, -⟩ := Split.mk.inj hnum
    refine absurd (List.mem_cons.mp hp) (not_or.mpr ⟨?_, brace_not_mem_numberRest _ _ _⟩)
    rintro rfl
    simp [hbrace.isDigit] at hnumber
  split at h
  case isTrue hident =>
    obtain ⟨-, q, hq, rfl⟩ := tagged_eq_ok_iff.mp h
    obtain ⟨-, hname, -⟩ := takeWhile_eq_iff.mp (Except.ok.inj hq)
    rcases List.mem_cons.mp hp with rfl | hp
    · exact absurd hident (by decide +kernel)
    · have hcontinue := hname _ hp
      rw [hbrace.name] at hcontinue
      cases hcontinue
  split at h
  case isTrue hregex =>
    obtain ⟨-, q, hq, rfl⟩ := tagged_eq_ok_iff.mp h
    exact Or.inr ((regexRest_endsClosed hq).behind [c])
  split at h
  case isTrue helement =>
    obtain ⟨-, q, hq, rfl⟩ := tagged_eq_ok_iff.mp h
    obtain ⟨q, rfl⟩ := ((levelMarks jsx _).element hq).angle
    exact Or.inr (.last (by decide) (c :: q))
  case isFalse =>
    obtain ⟨-, hpunct⟩ := Prod.mk.inj (Except.ok.inj h)
    unfold punctuator at hpunct
    split at hpunct
    case h_1 q hq =>
      obtain ⟨rfl, -⟩ := Split.mk.inj hpunct
      exact absurd hp (hbrace.punctuator _ (List.mem_of_find?_eq_some hq))
    case h_2 =>
      obtain ⟨rfl, -⟩ := Split.mk.inj hpunct
      obtain rfl : '\x7d' = c := by simpa using hp
      exact Or.inl rfl

/-! ## Tokens between braces -/

variable {x y z : Place} {t : Token} {ts us : List Token} {l : Option Token} {q : Position} {g v w m : List Char}
  {d : Option (List Char)} {n : Nat}

/-- A text does not begin with the mark of an interpreter line because of what is put behind it. -/
theorem not_mark_append {c : Char} (h : ¬ ['#', '!'] <+: a) (hc : c = '\x7b' ∨ c = '\x7d') (v : List Char) :
    ¬ ['#', '!'] <+: a ++ c :: v := by
  match a with
  | [] | [_] => rcases hc with rfl | rfl <;> simp
  | e :: f :: a => simpa using h

theorem Steps.last_eq (h : Steps jsx x ts z) : z.last = ts.getLast?.or x.last := by
  induction h with
  | refl => rfl
  | head hstep _ ih =>
    rw [ih, hstep.last, List.getLast?_cons]
    cases List.getLast? _ <;> rfl

/-- The tokens of a text that they spell are read before what ends lexemes. -/
theorem steps_of_run (h : run jsx a = .ok ts) (hmark : ¬ ['#', '!'] <+: a)
    (hspelled : (ts.flatMap fun t => t.gap.toList ++ t.text.toList) = a) {c : Char} (hc : EndsLexeme c) (v : List Char) :
    ∃ q, Steps jsx ⟨none, .start, a ++ c :: v⟩ ts ⟨ts.getLast?, q, c :: v⟩ := by
  obtain ⟨⟨l, q, g⟩, hsteps, -, -, -⟩ := run_eq_ok_iff_steps.mp h
  rw [Place.first_of_not_mark hmark] at hsteps
  have hrest := hsteps.rest_eq
  rw [hspelled] at hrest
  obtain rfl : g = [] := by simpa using hrest
  obtain rfl : l = ts.getLast? := by simpa using hsteps.last_eq
  rw [← List.append_nil a] at hsteps
  exact ⟨q, hsteps.before hc (r := [])⟩

/-- A brace behind a gap. -/
def braceBehind (c : Char) (g : List Char) (d : Option (List Char)) (q : Position) : Token :=
  ⟨.punct, String.singleton c, String.ofList g, q.after g, d.map String.ofList⟩

/-- **A brace is a token of its own.** -/
theorem step_brace {c : Char} (hc : c = '\x7b' ∨ c = '\x7d') (hgap : Gap.GoesBefore g d) (l : Option Token) (q : Position)
    (v : List Char) :
    Step jsx ⟨l, q, g ++ c :: v⟩ (braceBehind c g d q) ⟨some (braceBehind c g d q), (q.after g).after [c], v⟩ := by
  have halone : standsAlone c v.head? = true := by
    have hfirst : ∀ p ∈ punctuators, p.head? ≠ some c := by rcases hc with rfl | rfl <;> decide +kernel
    refine List.all_eq_true.mpr fun p hp => ?_
    simp [hfirst p hp]
  have hplain : c ≠ '.' ∧ c ≠ '<' ∧ c ∈ marks := by rcases hc with rfl | rfl <;> decide
  obtain ⟨hdot, hangle, hmark⟩ := hplain
  refine ⟨⟨d, ?_, rfl⟩, by simp [braceBehind], by simp [braceBehind], ?_, rfl, by simp [braceBehind]⟩
  · dsimp only
    rw [hgap, Gap.scan_brace hc]
    simp [braceBehind, Gap.precede, Gap.withDoc]
  · simpa [braceBehind] using lexeme_mark hmark halone (fun h => absurd h hdot) fun h => absurd h hangle

/-- The brace in front of a text, behind a gap of its own. -/
def openBrace (gap : String) : Token := ⟨.punct, "\x7b", gap, .start, none⟩

/-- A brace that comes at once. -/
def closeBrace : Token := ⟨.punct, "\x7d", "", .start, none⟩

/-- **Behind an opening brace** the tokens are those that are read at the beginning of a text. -/
theorem Steps.behindOpening (hfront : Steps jsx x us ⟨l, q, g ++ '\x7b' :: w⟩) (hgap : Gap.GoesBefore g none)
    (h : Steps jsx ⟨none, .start, w⟩ ts y) :
    ∃ us' z, Steps jsx x (us ++ us') z ∧ z.rest = y.rest ∧
      us'.map Token.unplaced = (openBrace (String.ofList g) :: ts).map Token.unplaced := by
  have hbrace : Step jsx _ _ _ := step_brace (Or.inl rfl) hgap l q w
  obtain ⟨ts', z, hsteps, hrest, hsame⟩ := h.elsewhere
    (rfl : Token.operandMayFollow (some (braceBehind '\x7b' g none q)) = _) ((q.after g).after ['\x7b'])
  exact ⟨_, z, hfront.append (.head hbrace hsteps), hrest, congrArg₂ List.cons rfl hsame⟩

/-- Behind a closing brace the tokens are those that are read behind any other one. -/
theorem steps_behindClosing {p : Position} (hgap : Gap.GoesBefore g d)
    (h : from? jsx n ⟨some closeBrace, p, v⟩ = .ok ts) (l : Option Token) (q : Position) :
    ∃ us z, Steps jsx ⟨l, q, g ++ '\x7d' :: v⟩ (braceBehind '\x7d' g d q :: us) z ∧
      us.map Token.unplaced = ts.map Token.unplaced ∧ ∃ g d, Gap.scan z.rest = .ok ⟨g, d, []⟩ := by
  rw [← List.append_nil ts] at h
  obtain ⟨m, z, -, hsteps, hend⟩ := exists_steps h
  obtain ⟨us, z', hsteps', hrest, hsame⟩ := hsteps.elsewhere
    (rfl : Token.operandMayFollow (some (braceBehind '\x7d' g d q)) = _) ((q.after g).after ['\x7d'])
  exact ⟨us, z', .head (step_brace (Or.inr rfl) hgap l q v) hsteps', hsame, hrest ▸ scan_of_from?_nil hend⟩

/-- The tokens of a text with a closing brace at its end, which is the last of them. -/
structure ClosesIn (jsx : Bool) (m : List Char) (ts : List Token) (brace : Token) : Prop where
  begins : ¬ ['#', '!'] <+: m
  tokens : run jsx (m ++ ['\x7d']) = .ok (ts ++ [brace])
  spelled : ((ts ++ [brace]).flatMap fun t => t.gap.toList ++ t.text.toList) = m ++ ['\x7d']
  text : brace.text = "\x7d"

/-- Such a text is read up to the gap before its brace, whatever follows the brace. -/
theorem ClosesIn.steps {brace : Token} (h : ClosesIn jsx m ts brace) (v : List Char) :
    ∃ l q d, Steps jsx ⟨none, .start, m ++ '\x7d' :: v⟩ ts ⟨l, q, brace.gap.toList ++ '\x7d' :: v⟩ ∧
      Gap.GoesBefore brace.gap.toList d ∧
        brace.unplaced = (braceBehind '\x7d' brace.gap.toList d .start).unplaced := by
  obtain ⟨z, hsteps, -⟩ := run_eq_ok_iff_steps.mp h.tokens
  rw [Place.first_of_not_mark (not_mark_append h.begins (Or.inr rfl) [])] at hsteps
  have hz : z.rest = [] := by
    have hrest := hsteps.rest_eq
    rw [h.spelled] at hrest
    simpa using hrest
  obtain ⟨⟨l, q, rest⟩, hts, hlast⟩ := hsteps.exists_append
  cases hlast with
  | head hstep hnil =>
    cases hnil
    obtain ⟨d, hgap, hdoc⟩ := hstep.gap
    have hrest := hstep.rest_eq
    have hlexeme := hstep.lexeme
    rw [hz, h.text] at hrest hgap hlexeme
    obtain rfl : rest = brace.gap.toList ++ ['\x7d'] := hrest
    have hbefore : Gap.GoesBefore brace.gap.toList d := fun s => Gap.scan_append hgap (by simp) s
    refine ⟨l, q, d, hts.before (endsLexeme_brace (Or.inr rfl)), hbefore, ?_⟩
    have hclose : Step jsx _ _ _ := step_brace (Or.inr rfl) Gap.GoesBefore.nil l q []
    have hkind : brace.kind = .punct := (Prod.mk.inj (Except.ok.inj (hlexeme.symm.trans hclose.lexeme))).1
    refine Token.unplaced_eq_iff.mpr ⟨hkind, h.text, ?_, hdoc⟩
    rw [braceBehind, String.ofList_toList]

/-! ## A text cut off behind a brace -/

/-- **What is read over a brace** can be read up to the brace, when nothing behind it could close what is open there. -/
theorem Steps.cut (h : Steps jsx x ts z) (hend : ∃ g d, Gap.scan z.rest = .ok ⟨g, d, []⟩) (hx : x.rest = m ++ '\x7d' :: v)
    (hv : ∀ c ∈ closers, c ∉ v) :
    ∃ us y, Steps jsx ⟨x.last, x.position, m ++ ['\x7d']⟩ us y ∧ ∃ g d, Gap.scan y.rest = .ok ⟨g, d, []⟩ := by
  induction h generalizing m with
  | refl x =>
    obtain ⟨g, d, hscan⟩ := hend
    obtain ⟨hg, hgap⟩ := Gap.scan_isGap _ hscan
    rw [List.append_nil] at hg
    obtain ⟨d', hinside⟩ := Gap.endsInside_of_isGap hgap (hg ▸ hx) (hv '/' (by decide))
    exact ⟨[], _, .refl _, _, d', hinside⟩
  | @head x y z t ts hstep hsteps ih =>
    obtain ⟨doc, hscan, -⟩ := hstep.gap
    have hbefore : Gap.GoesBefore t.gap.toList doc := by
      rw [hstep.rest_eq] at hscan
      exact fun s => Gap.scan_append hscan hstep.nonempty s
    rcases append_eq_cons_cases (hstep.rest_eq.symm.trans hx) with ⟨b, hg, rfl⟩ | ⟨m', rfl, hm⟩
    · -- the brace is in a comment
      have hgap := (Gap.scan_isGap _ hscan).2
      obtain ⟨d', hinside⟩ := Gap.endsInside_of_isGap hgap hg fun hb => hv '/' (by decide) (List.mem_append_left _ hb)
      exact ⟨[], _, .refl _, _, d', hinside⟩
    rcases append_eq_cons_cases hm with ⟨b, htext, rfl⟩ | ⟨m'', rfl, hy⟩
    · -- no other token with a brace in it ends where it could
      rcases lexeme_brace_or_endsClosed hstep.lexeme (by rw [htext]; simp) with hbrace | hclosed
      · obtain rfl : m' = [] := by
          rw [hbrace] at htext
          cases m' with
          | nil => rfl
          | cons e m' => simpa using congrArg List.length htext
        rw [List.append_nil]
        exact ⟨_, _, .head (step_brace (Or.inr rfl) hbefore x.last x.position []) (.refl _), [], none, rfl⟩
      · rw [htext] at hclosed
        obtain ⟨c, hc, hb⟩ := hclosed.exists_behind_brace
        exact absurd (List.mem_append_left _ hb) (hv c hc)
    · -- the brace comes behind the token
      obtain ⟨last, position, rest⟩ := y
      obtain rfl : rest = m'' ++ '\x7d' :: v := hy
      obtain ⟨us, z', hsteps', hend'⟩ := ih hend rfl
      have hfirst := hstep.before (endsLexeme_brace (c := '\x7d') (Or.inr rfl)) (v := [])
      rw [List.append_assoc, List.append_assoc]
      exact ⟨t :: us, z', .head hfirst hsteps', hend'⟩

/-! ## What stands around the braces -/

/-- What tokens are found up to their places, they are found at some places. -/
theorem exists_of_map_unplaced {ε : Type} {found : Except ε (List Token)}
    (h : found.map (List.map Token.unplaced) = .ok (us.map Token.unplaced)) :
    ∃ ts, found = .ok ts ∧ ts.map Token.unplaced = us.map Token.unplaced := by
  cases found with
  | error e => cases h
  | ok ts => exact ⟨ts, rfl, Except.ok.inj h⟩

/-- Tokens spell the same wherever they stand. -/
theorem flatMap_of_unplaced (h : ts.map Token.unplaced = us.map Token.unplaced) :
    (ts.flatMap fun t => t.gap.toList ++ t.text.toList) = us.flatMap fun t => t.gap.toList ++ t.text.toList := by
  simpa [List.flatMap_map, Token.unplaced] using congrArg (List.flatMap fun t : Token => t.gap.toList ++ t.text.toList) h

/-- What stands before and behind two braces, with its tokens, which are the same with elements and without them. A blank
stands before the opening brace. -/
structure Surrounds (front back : List Char) (us vs : List Token) : Prop where
  begins : front.head? ≠ some '#'
  before : ∀ jsx, (run jsx front).map (List.map Token.unplaced) = .ok (us.map Token.unplaced)
  spelled : (us.flatMap fun t => t.gap.toList ++ t.text.toList) = front
  behind : ∀ jsx, ∃ n p, (from? jsx n ⟨some closeBrace, p, back⟩).map (List.map Token.unplaced) =
    .ok (vs.map Token.unplaced)
  unmarked : mayHaveElements front = false ∧ mayHaveElements back = false
  plain : ∀ c ∈ closers, c ∉ back

namespace Surrounds

variable {front back : List Char} {vs all : List Token} {brace : Token} (h : Surrounds front back us vs)
include h

theorem not_mark (w : List Char) : ¬ ['#', '!'] <+: front ++ ' ' :: w := by
  rintro ⟨r, hr⟩
  exact head?_append_ne h.begins (c := ' ') (s := w) (by decide) (by rw [← hr]; rfl)

theorem steps (jsx : Bool) (w : List Char) :
    ∃ us' l q, Steps jsx ⟨none, .start, front ++ ' ' :: w⟩ us' ⟨l, q, ' ' :: w⟩ ∧
      us'.map Token.unplaced = us.map Token.unplaced := by
  obtain ⟨us', hrun, hsame⟩ := exists_of_map_unplaced (h.before jsx)
  have hspelled := (flatMap_of_unplaced hsame).trans h.spelled
  have hmark : ¬ ['#', '!'] <+: front := by
    rintro ⟨r, hr⟩
    exact h.begins (by rw [← hr]; rfl)
  obtain ⟨q, hsteps⟩ := steps_of_run hrun hmark hspelled endsLexeme_space w
  exact ⟨us', _, q, hsteps, hsame⟩

/-- A text between the braces has its own tokens there. -/
theorem run_between (hm : ClosesIn jsx m ts brace) :
    ∃ all, run jsx (front ++ ' ' :: '\x7b' :: (m ++ '\x7d' :: back)) = .ok all ∧
      all.map Token.unplaced = (us ++ openBrace " " :: (ts ++ brace :: vs)).map Token.unplaced := by
  obtain ⟨us', l₀, p, hfront, hus⟩ := h.steps jsx ('\x7b' :: (m ++ '\x7d' :: back))
  obtain ⟨l, q, d, hinside, hgap, hbrace⟩ := hm.steps back
  obtain ⟨ts', ⟨l', q', rest⟩, hsteps, hrest, hts⟩ := hfront.behindOpening (Gap.GoesBefore.nil.blank (by decide)) hinside
  obtain rfl : rest = _ := hrest
  obtain ⟨n, p', hbehind⟩ := h.behind jsx
  obtain ⟨vs', hback, hvs⟩ := exists_of_map_unplaced hbehind
  obtain ⟨vs'', z, hbehind, hvs', hend⟩ := steps_behindClosing hgap hback l' q'
  have hall := hsteps.append hbehind
  rw [← Place.first_of_not_mark (h.not_mark _)] at hall
  refine ⟨_, run_eq_ok_iff_steps.mpr ⟨z, hall, hend⟩, ?_⟩
  have hclose : (braceBehind '\x7d' brace.gap.toList d q').unplaced = brace.unplaced := hbrace.symm
  have hopen : openBrace (String.ofList [' ']) = openBrace " " := rfl
  simp only [List.map_append, List.map_cons, hus, hts, hvs', hvs, hclose, hopen, List.append_assoc, List.cons_append]

/-- When the whole is read, so is the text up to its closing brace. -/
theorem exists_run_of_between (hmark : ¬ ['#', '!'] <+: m)
    (hall : run jsx (front ++ ' ' :: '\x7b' :: (m ++ '\x7d' :: back)) = .ok all) :
    ∃ ts, run jsx (m ++ ['\x7d']) = .ok ts := by
  obtain ⟨us', l, p, hfront, -⟩ := h.steps jsx ('\x7b' :: (m ++ '\x7d' :: back))
  have hopen := hfront.append (.head (step_brace (Or.inl rfl) (Gap.GoesBefore.nil.blank (c := ' ') (by decide)) _ p _) (.refl _))
  obtain ⟨n, -, hrun⟩ := run_of_steps (head?_append_ne h.begins (by decide)) hopen
  rw [hall] at hrun
  cases hrest : from? jsx n ⟨_, _, _⟩ with
  | error fault =>
    rw [hrest] at hrun
    cases hrun
  | ok more =>
    rw [← List.append_nil more] at hrest
    obtain ⟨k, z, -, hsteps, hend⟩ := exists_steps hrest
    obtain ⟨ts, y, hcut, hend⟩ := hsteps.cut (scan_of_from?_nil hend) rfl h.plain
    obtain ⟨ts', y', hfirst, hy, -⟩ := hcut.elsewhere (l := none) rfl .start
    refine ⟨ts', run_eq_ok_iff_steps.mpr ⟨y', ?_, hy ▸ hend⟩⟩
    rwa [Place.first_of_not_mark (not_mark_append hmark (Or.inr rfl) [])]

/-- **Whether the whole is read with elements** is told by the text between the braces. -/
theorem readsElements_between (hm : ClosesIn (readsElements (m ++ ['\x7d'])) m ts brace) :
    readsElements (front ++ ' ' :: '\x7b' :: (m ++ '\x7d' :: back)) = readsElements (m ++ ['\x7d']) := by
  have hmarks : mayHaveElements (front ++ ' ' :: '\x7b' :: (m ++ '\x7d' :: back)) = mayHaveElements (m ++ ['\x7d']) := by
    obtain ⟨hfront, hback⟩ := h.unmarked
    have hnil : mayHaveElements [] = false := rfl
    have hblank := mayHaveElements_between (q := ' ') (by decide) front ('\x7b' :: (m ++ '\x7d' :: back))
    have hopen := mayHaveElements_between (q := '\x7b') (by decide) [] (m ++ '\x7d' :: back)
    rw [List.nil_append] at hopen
    simp only [hblank, hopen, mayHaveElements_between (q := '\x7d') (by decide), hfront, hback, hnil, Bool.false_or,
      Bool.or_false]
  refine Bool.eq_iff_iff.mpr ⟨fun hreads => ?_, fun hreads => ?_⟩
  · rw [readsElements, hmarks, Bool.and_eq_true] at hreads
    obtain ⟨hmay, hok⟩ := hreads
    cases hall : run true (front ++ ' ' :: '\x7b' :: (m ++ '\x7d' :: back)) with
    | error fault =>
      rw [hall] at hok
      cases hok
    | ok all =>
      obtain ⟨ts, hts⟩ := h.exists_run_of_between hm.begins hall
      rw [readsElements, hmay, hts]
      rfl
  · rw [hreads] at hm
    obtain ⟨all, hall, -⟩ := h.run_between hm
    rw [readsElements, Bool.and_eq_true] at hreads
    rw [readsElements, hmarks, hreads.1, hall]
    rfl

end Surrounds

end Lexer

open Lexer

/-- The tokens of a text with a closing brace behind it, which is the last of them, wherever they stand. -/
structure IsEnclosed (m : String) (ts : List Token) (brace : Token) : Prop where
  begins : ¬ "#!".toList <+: m.toList
  tokens : (tokenize (m ++ "\x7d")).map (List.map Token.unplaced) = .ok ((ts ++ [brace]).map Token.unplaced)
  spelled : ((ts ++ [brace]).flatMap fun t => t.gap.toList ++ t.text.toList) = m.toList ++ ['\x7d']
  text : brace.text = "\x7d"

namespace IsEnclosed

variable {m : String} {ts : List Token} {brace : Token}

theorem exists_closesIn (h : IsEnclosed m ts brace) :
    ∃ us closing, ClosesIn (readsElements (m.toList ++ ['\x7d'])) m.toList us closing ∧
      us.map Token.unplaced = ts.map Token.unplaced ∧ closing.unplaced = brace.unplaced := by
  obtain ⟨all, htokens, hall⟩ := exists_of_map_unplaced h.tokens
  obtain ⟨us, last, rfl, hus, hlast⟩ := List.map_eq_append_iff.mp (hall.trans List.map_append)
  obtain ⟨closing, rfl, hclosing⟩ := List.map_eq_singleton_iff.mp hlast
  have hbrace : (m ++ "\x7d").toList = m.toList ++ ['\x7d'] := by simp
  rw [tokenize, tokens_eq_run, hbrace] at htokens
  exact ⟨us, closing, ⟨h.begins, htokens, (flatMap_of_unplaced hall).trans h.spelled,
    (Token.unplaced_eq_iff.mp hclosing).2.1.trans h.text⟩, hus, hclosing⟩

theorem isPunct (h : IsEnclosed m ts brace) : brace.isPunct "\x7d" = true := by
  obtain ⟨us, closing, hcloses, -, hsame⟩ := h.exists_closesIn
  obtain ⟨l, q, d, -, -, hbrace⟩ := hcloses.steps []
  exact Token.isPunct_iff.mpr ⟨(Token.unplaced_eq_iff.mp (hsame.symm.trans hbrace)).1, h.text⟩

end IsEnclosed

/-- **A text between braces** has the tokens there that it has before a closing brace of its own. -/
theorem tokenize_between {front back : List Char} {us vs ts : List Token} {brace : Token} {m w : String}
    (h : Surrounds front back us vs) (hm : IsEnclosed m ts brace)
    (hw : w.toList = front ++ ' ' :: '\x7b' :: (m.toList ++ '\x7d' :: back)) :
    ∃ all, tokenize w = .ok all ∧
      all.map Token.unplaced = (us ++ openBrace " " :: (ts ++ brace :: vs)).map Token.unplaced := by
  obtain ⟨ts', closing, hcloses, hts, hclosing⟩ := hm.exists_closesIn
  obtain ⟨all, hrun, hall⟩ := h.run_between hcloses
  refine ⟨all, by rw [tokenize, tokens_eq_run, hw, h.readsElements_between hcloses, hrun], ?_⟩
  simpa only [List.map_append, List.map_cons, hts, hclosing] using hall

end AppBundler
