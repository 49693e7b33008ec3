import AppBundler.Proofs.Source.NextLine
import AppBundler.Proofs.Source.Rewriting
/-!
# Texts on lines of their own

Behind a semicolon a text is read as at the beginning. So where one text ends with a semicolon and another one stands on
the lines below it, the tokens of both come one after the other, as long as all is read with elements or all without.
But a mark of a closing tag anywhere decides for the whole text, and so does a reading with elements that fails. Each
of two texts may be read in its own way, and then their tokens are not those of the whole.
-/

namespace AppBundler

/-! ## Gaps before a line feed -/

namespace Gap

variable {body g : List Char} {d : Option (List Char)}

theorem scanLine_body (hbody : '\n' ∉ body) (s : List Char) :
    scanLine (body ++ '\n' :: s) = precede body (scan ('\n' :: s)) := by
  induction body with
  | nil => rw [List.nil_append, scanLine, if_pos rfl, Lexer.scan_lineFeed, precede_nil]
  | cons c body ih =>
    obtain ⟨hc, hbody⟩ := not_or.mp (mt List.mem_cons.mpr hbody)
    rw [List.cons_append, scanLine, if_neg (Ne.symm hc), ih hbody, precede_precede]
    rfl

/-- A block comment goes up to its first end. -/
theorem scanBlock_body (hbody : ¬ ['*', '/'] <:+: body) (rev s : List Char) :
    scanBlock rev (body ++ '*' :: '/' :: s) =
      precede (body ++ ['*', '/']) (withDoc (docOf (rev.reverse ++ body)) (scan s)) := by
  induction body generalizing rev with
  | nil => rw [List.nil_append, scanBlock, withDoc_precede, List.append_nil, List.nil_append]
  | cons c body ih =>
    obtain ⟨hhere, hbody⟩ := not_or.mp (mt List.infix_cons_iff.mpr hbody)
    rw [List.cons_append, scanBlock, ih hbody, precede_precede, List.reverse_cons, List.append_assoc]
    · rfl
    · rintro r rfl hr
      cases body with
      | nil => cases hr
      | cons e body =>
        obtain ⟨rfl, -⟩ := List.cons.inj hr
        exact hhere ⟨body, rfl⟩

/-- A line comment is read into the gap up to its line feed. -/
theorem scan_line (hbody : '\n' ∉ body) (s : List Char) :
    scan ('/' :: '/' :: (body ++ '\n' :: s)) = precede ('/' :: '/' :: body) (scan ('\n' :: s)) := by
  rw [scan, scanLine_body hbody, precede_precede]
  rfl

/-- A block comment is read into the gap with its documentation. -/
theorem scan_block (hbody : ¬ ['*', '/'] <:+: body) (s : List Char) :
    scan ('/' :: '*' :: (body ++ '*' :: '/' :: s)) =
      precede ('/' :: '*' :: (body ++ ['*', '/'])) (withDoc (docOf body) (scan s)) := by
  rw [scan, scanBlock_body hbody, precede_precede, List.reverse_nil, List.nil_append]
  rfl

theorem docOf_plain (hplain : ∀ c r, body ≠ '*' :: c :: r) : docOf body = none := by
  unfold docOf
  split
  case h_1 c r => exact absurd rfl (hplain c r)
  case h_2 => rfl

theorem docOf_star (hne : body ≠ []) : docOf ('*' :: body) = some body := by
  obtain ⟨c, r, rfl⟩ := List.exists_cons_of_ne_nil hne
  rfl

/-- A gap that is read as such before all that may come behind it. -/
def GoesBefore (g : List Char) (d : Option (List Char)) : Prop :=
  ∀ s, scan (g ++ s) = precede g (withDoc d (scan s))

namespace GoesBefore

theorem nil : GoesBefore [] none := fun s => by simp

theorem blank {c : Char} (hc : isBlank c = true) (h : GoesBefore g d) : GoesBefore (c :: g) d := by
  intro s
  rw [List.cons_append, scan_blank hc, h, precede_precede]
  rfl

theorem line (hbody : '\n' ∉ body) (h : GoesBefore ('\n' :: g) d) : GoesBefore ('/' :: '/' :: (body ++ '\n' :: g)) d := by
  intro s
  rw [List.cons_append, List.cons_append, List.append_assoc, List.cons_append, scan_line hbody, ← List.cons_append, h,
    precede_precede]
  rfl

theorem block (hbody : ¬ ['*', '/'] <:+: body) (h : GoesBefore g d) :
    GoesBefore ('/' :: '*' :: (body ++ '*' :: '/' :: g)) (d.or (docOf body)) := by
  intro s
  rw [List.cons_append, List.cons_append, List.append_assoc, List.cons_append, List.cons_append, scan_block hbody, h,
    withDoc_precede, withDoc_withDoc, precede_precede]
  simp

end GoesBefore

/-- A gap that is closed goes before all. -/
theorem goesBefore_of_isGap (h : IsGap false g d) : GoesBefore g d := by
  induction h with
  | nil => exact .nil
  | blank hc _ ih => exact .blank hc ih
  | line hbody _ ih => exact .line hbody ih
  | lastLine _ hlast => cases hlast
  | block hbody hplain _ ih => simpa only [docOf_plain hplain, Option.or_none] using ih.block hbody
  | doc hbody hne _ ih => simpa only [docOf_star hne, List.cons_append] using ih.block hbody

/-- **A gap up to the end of a text** goes before the lines below. -/
theorem goesBefore_below (h : scan g = .ok ⟨g, d, []⟩) : GoesBefore (g ++ ['\n']) d := by
  have hgap : IsGap true g d := (scan_isGap g h).2
  clear h
  induction hgap with
  | nil => exact .blank (by decide) .nil
  | blank hc _ ih => exact .blank hc ih
  | @line body g d hbody _ ih => simpa using GoesBefore.line hbody ih
  | lastLine hbody _ => exact .line hbody (.blank (by decide) .nil)
  | @block body g d hbody hplain _ ih => simpa [docOf_plain hplain] using ih.block hbody
  | @doc body g d hbody hne _ ih => simpa [docOf_star hne] using ih.block hbody

end Gap

/-! ## Words -/

namespace Token

variable {t u : Token}

/-- What a token is, wherever it stands. -/
def word (t : Token) : TokenKind × String := (t.kind, t.text)

theorem word_eq_iff : t.word = u.word ↔ t.kind = u.kind ∧ t.text = u.text := Prod.ext_iff

theorem operandMayFollow_of_word (h : t.word = u.word) : operandMayFollow (some t) = operandMayFollow (some u) := by
  obtain ⟨hkind, htext⟩ := word_eq_iff.mp h
  simp only [operandMayFollow, hkind, htext]

/-- What a token is and what stands before it, wherever it stands. -/
def unplaced (t : Token) : Token := { t with start := .start }

theorem unplaced_eq_iff : t.unplaced = u.unplaced ↔ t.kind = u.kind ∧ t.text = u.text ∧ t.gap = u.gap ∧ t.doc = u.doc := by
  simp only [unplaced, Token.mk.injEq, true_and]

theorem isPunct_iff {text : String} : t.isPunct text = true ↔ t.kind = .punct ∧ t.text = text := by
  simp [isPunct]

end Token

/-- The words of some tokens. -/
def words (ts : List Token) : List (TokenKind × String) := ts.map Token.word

theorem words_of_unplaced {ts us : List Token} (h : ts.map Token.unplaced = us.map Token.unplaced) : words ts = words us := by
  have hwords := congrArg (List.map Token.word) h
  rwa [List.map_map, List.map_map] at hwords

theorem words_append (ts us : List Token) : words (ts ++ us) = words ts ++ words us := List.map_append

theorem words_eq_iff {ts us : List Token} : words us = words ts ↔ List.Forall₂ (fun t u => u.word = t.word) ts us := by
  rw [eq_comm, words, words, ← List.forall₂_eq_eq_eq, List.forall₂_map_left_iff, List.forall₂_map_right_iff]
  simp only [eq_comm]

namespace Lexer

open Lexeme

variable {jsx jsx' : Bool} {x x' y y' z z' : Place} {t t' : Token} {ts us ts' : List Token}

/-! ## Steps over the same words -/

theorem Steps.exists_append (h : Steps jsx x (ts ++ us) z) : ∃ y, Steps jsx x ts y ∧ Steps jsx y us z := by
  induction ts generalizing x with
  | nil => exact ⟨x, .refl x, h⟩
  | cons t ts ih =>
    cases h with
    | head hstep hsteps =>
      obtain ⟨y, hts, hus⟩ := ih hsteps
      exact ⟨y, .head hstep hts, hus⟩

/-- Where the words are the same, so is the gap, however the text goes on below. -/
theorem Step.aligned {v : List Char} (h : Step jsx x t y) (h' : Step jsx' x' t' y') (hword : t'.word = t.word)
    (hrest : x'.rest = x.rest ++ v) (hv : ∀ c ∈ v.head?, c = '\n') :
    t'.gap = t.gap ∧ t'.doc = t.doc ∧ y'.rest = y.rest ++ v := by
  obtain ⟨doc, hgap, hdoc⟩ := h.gap
  obtain ⟨doc', hgap', hdoc'⟩ := h'.gap
  obtain ⟨-, htext⟩ := Token.word_eq_iff.mp hword
  obtain ⟨-, hstop, hread⟩ := (Gap.readsOn _).1 hgap h.nonempty
  have hbehind : Gap.scan (t.text.toList ++ (y.rest ++ v)) = .ok ⟨[], none, t.text.toList ++ (y.rest ++ v)⟩ := by
    obtain ⟨c, text, hc⟩ := List.exists_cons_of_ne_nil h.text_ne_nil
    rw [hc, List.cons_append, Gap.scan_eq_nil_iff] at hstop ⊢
    refine ⟨hstop.1, fun hslash => ?_⟩
    have hstop := hstop.2 hslash
    rw [← List.append_assoc]
    cases hrest : text ++ y.rest with
    | cons e s =>
      rw [hrest] at hstop
      exact hstop
    | nil =>
      cases hv' : v with
      | nil => rfl
      | cons e v =>
        obtain rfl := hv e (by rw [hv']; rfl)
        rfl
  rw [hrest, h.rest_eq, List.append_assoc, List.append_assoc, hread, hbehind] at hgap'
  obtain ⟨htext', hdoc'', hleft⟩ : t.gap.toList = t'.gap.toList ∧ doc = doc' ∧
      t.text.toList ++ (y.rest ++ v) = t'.text.toList ++ y'.rest := by
    simpa [Gap.precede, Gap.withDoc] using hgap'
  refine ⟨(String.toList_injective htext').symm, by rw [hdoc, hdoc', hdoc''], ?_⟩
  rw [htext] at hleft
  exact (List.append_cancel_left hleft).symm

/-- **Steps over the same words**, one time with elements and the other time without. The tokens of the first reading
are those of the second one from the same place on. -/
theorem Steps.aligned {v : List Char} (h : Steps jsx x ts z) (h' : Steps jsx' x' ts' z') (hwords : words ts' = words ts)
    (hrest : x'.rest = x.rest ++ v) (hv : ∀ c ∈ v.head?, c = '\n')
    (hlast : Token.operandMayFollow x'.last = Token.operandMayFollow x.last) :
    Steps jsx' ⟨x.last, x.position, x.rest ++ v⟩ ts ⟨z.last, z.position, z.rest ++ v⟩ ∧ z'.rest = z.rest ++ v ∧
      Token.operandMayFollow z'.last = Token.operandMayFollow z.last := by
  induction h generalizing x' ts' with
  | refl x =>
    obtain rfl := List.map_eq_nil_iff.mp hwords
    cases h'
    exact ⟨.refl _, hrest, hlast⟩
  | @head x y z t ts hstep hsteps ih =>
    obtain ⟨t', ts', rfl⟩ := List.exists_cons_of_ne_nil fun hnil : ts' = [] => by simp [hnil, words] at hwords
    obtain ⟨hword, hwords⟩ := List.cons.inj hwords
    cases h' with
    | head hstep' hsteps' =>
      obtain ⟨hgap, hdoc, hleft⟩ := hstep.aligned hstep' hword hrest hv
      obtain ⟨hkind, htext⟩ := Token.word_eq_iff.mp hword
      have hoperand := Token.operandMayFollow_of_word hword
      rw [← hstep.last, ← hstep'.last] at hoperand
      obtain ⟨hrun, hend⟩ := ih hsteps' hwords hleft hoperand
      refine ⟨.head (y := ⟨y.last, y.position, y.rest ++ v⟩) ⟨?_, hstep.start, ?_, ?_, hstep.last, hstep.position⟩ hrun, hend⟩
      · obtain ⟨doc, hread, hdoc'⟩ := hstep'.gap
        refine ⟨doc, ?_, by rw [← hdoc, hdoc']⟩
        rw [← hrest, hread, hgap, htext, hleft]
      · simp [hstep.text_ne_nil]
      · have hlexeme := hstep'.lexeme
        rw [hlast, hkind, htext, hleft] at hlexeme
        exact hlexeme

/-! ## Behind a semicolon -/

/-- **Steps up to a semicolon** are taken whatever comes behind it. -/
theorem Steps.semicolon {l : Option Token} {q : Position} {u : List Char} (h : Steps jsx x (ts ++ [t]) ⟨l, q, u⟩)
    (ht : t.isPunct ";" = true) :
    ∃ w, x.rest = w ++ u ∧ ∀ v, Steps jsx ⟨x.last, x.position, w ++ v⟩ (ts ++ [t]) ⟨l, q, v⟩ := by
  obtain ⟨hkind, htext⟩ : t.kind = .punct ∧ t.text = ";" := by simpa [Token.isPunct] using ht
  obtain ⟨⟨l₁, p₁, rest⟩, hsteps, hlast⟩ := h.exists_append
  cases hlast with
  | head hstep hnil =>
    cases hnil
    obtain rfl : rest = t.gap.toList ++ ';' :: u := by
      have hrest := hstep.rest_eq
      rwa [htext] at hrest
    have hx := hsteps.rest_eq
    generalize ts.flatMap (fun t => t.gap.toList ++ t.text.toList) = spelled at hx
    refine ⟨spelled ++ t.gap.toList ++ [';'], by rw [hx]; simp, fun v => ?_⟩
    obtain ⟨last, position, text⟩ := x
    obtain rfl : text = spelled ++ (t.gap.toList ++ ';' :: u) := hx
    dsimp only
    rw [← List.append_assoc] at hsteps
    rw [List.append_assoc]
    refine (hsteps.before (b := ';') (v := v) (IsBoundary.endsLexeme (Or.inl rfl))).append (.head ?_ (.refl _))
    obtain ⟨doc, hgap, hdoc⟩ := hstep.gap
    rw [htext] at hgap
    refine ⟨⟨doc, ?_, hdoc⟩, hstep.start, by simp [htext], ?_, hstep.last, hstep.position⟩
    · rw [htext]
      exact scan_before hgap fun hslash => absurd hslash (by decide)
    · rw [htext, hkind]
      exact lexeme_semicolon _ _ _

/-! ## Behind a gap -/

section Behind

variable {b g : List Char} {d : Option (List Char)} {l l' : Option Token} {p q : Position}

/-- Behind a gap the same token is read. -/
theorem Step.behindGap (h : Step jsx ⟨l, p, b⟩ t y) (hgap : Gap.GoesBefore g d)
    (hlast : Token.operandMayFollow l' = Token.operandMayFollow l) (q : Position) :
    ∃ t' z, Step jsx ⟨l', q, g ++ b⟩ t' z ∧ t'.word = t.word ∧ z.rest = y.rest := by
  obtain ⟨doc, hread, -⟩ := h.gap
  dsimp only at hread
  refine ⟨⟨t.kind, t.text, String.ofList (g ++ t.gap.toList), q.after (g ++ t.gap.toList),
    (doc.or d).map String.ofList⟩, ⟨some _, _, y.rest⟩, ⟨⟨doc.or d, ?_, rfl⟩, ?_, h.nonempty, ?_, rfl, rfl⟩, rfl, rfl⟩
  · dsimp only
    rw [hgap, hread]
    simp [Gap.precede, Gap.withDoc]
  · simp
  · dsimp only
    rw [hlast]
    exact h.lexeme

/-- A token that is read behind a gap is read without the gap too. -/
theorem Step.withoutGap (h : Step jsx ⟨l, p, b⟩ t y) (hgap : Gap.GoesBefore g d)
    (hlast : Token.operandMayFollow l' = Token.operandMayFollow l) (h' : Step jsx' ⟨l', q, g ++ b⟩ t' y')
    (hword : t'.word = t.word) : Step jsx' ⟨l, p, b⟩ t y ∧ y'.rest = y.rest := by
  obtain ⟨doc, hread, hdoc⟩ := h.gap
  obtain ⟨doc', hread', -⟩ := h'.gap
  obtain ⟨hkind, htext⟩ := Token.word_eq_iff.mp hword
  dsimp only at hread hread'
  rw [hgap, hread] at hread'
  have hleft : t.text.toList ++ y.rest = t'.text.toList ++ y'.rest := (Gap.mk.inj (Except.ok.inj hread')).2.2
  rw [htext] at hleft
  have hrest : y'.rest = y.rest := (List.append_cancel_left hleft).symm
  refine ⟨⟨⟨doc, hread, hdoc⟩, h.start, h.nonempty, ?_, h.last, h.position⟩, hrest⟩
  have hlexeme := h'.lexeme
  dsimp only at hlexeme ⊢
  rwa [hlast, hkind, htext, hrest] at hlexeme

/-- The same tokens are read from any other place with the same text and the same kind of token before it. -/
theorem Steps.elsewhere (h : Steps jsx x ts z) (hlast : Token.operandMayFollow l = Token.operandMayFollow x.last)
    (p : Position) :
    ∃ ts' z', Steps jsx ⟨l, p, x.rest⟩ ts' z' ∧ z'.rest = z.rest ∧ ts'.map Token.unplaced = ts.map Token.unplaced := by
  have hsame : ∀ t ∈ ts, t.RespelledAs t.text.toList := fun t _ => .same
  obtain ⟨ts', z', hsteps, hrest, hall⟩ := h.respell hsame hlast p
  rw [respelled, ← h.rest_eq] at hsteps
  refine ⟨ts', z', hsteps, hrest, ?_⟩
  rw [← List.forall₂_eq_eq_eq, List.forall₂_map_left_iff, List.forall₂_map_right_iff]
  refine hall.flip.imp fun t' t h => ?_
  exact Token.unplaced_eq_iff.mpr ⟨h.1.kind, String.toList_injective h.2, h.1.gap, h.1.doc⟩

/-- Behind a gap the same words are read, up to the same end. -/
theorem Steps.behindGap (h : Steps jsx ⟨l, p, b⟩ ts z) (hgap : Gap.GoesBefore g d)
    (hlast : Token.operandMayFollow l' = Token.operandMayFollow l) (q : Position)
    (hend : ∃ g d, Gap.scan z.rest = .ok ⟨g, d, []⟩) :
    ∃ ts' z', Steps jsx ⟨l', q, g ++ b⟩ ts' z' ∧ words ts' = words ts ∧
      ∃ g d, Gap.scan z'.rest = .ok ⟨g, d, []⟩ := by
  cases h with
  | refl =>
    obtain ⟨g', d', hend⟩ := hend
    refine ⟨[], _, .refl _, rfl, g ++ g', d'.or d, ?_⟩
    dsimp only at hend ⊢
    rw [hgap, hend]
    rfl
  | @head _ y _ t ts hstep hsteps =>
    obtain ⟨t', ⟨l₁, p₁, rest⟩, hstep', hword, hrest⟩ := hstep.behindGap hgap hlast q
    obtain rfl : rest = y.rest := hrest
    have hlast' : Token.operandMayFollow l₁ = Token.operandMayFollow y.last := by
      rw [hstep.last, show l₁ = some t' from hstep'.last, Token.operandMayFollow_of_word hword]
    obtain ⟨ts', z', hsteps', hrest', hsame⟩ := hsteps.elsewhere hlast' p₁
    exact ⟨t' :: ts', z', .head hstep' hsteps', congrArg₂ List.cons hword (words_of_unplaced hsame), hrest' ▸ hend⟩

/-- Tokens that are read behind a gap are read without the gap too. -/
theorem Steps.withoutGap (h : Steps jsx ⟨l, p, b⟩ ts z) (hgap : Gap.GoesBefore g d)
    (hlast : Token.operandMayFollow l' = Token.operandMayFollow l) (h' : Steps jsx' ⟨l', q, g ++ b⟩ ts' z')
    (hwords : words ts' = words ts) : Steps jsx' ⟨l, p, b⟩ ts z := by
  cases h with
  | refl => exact .refl _
  | @head _ y _ t ts hstep hsteps =>
    obtain ⟨t', ts', rfl⟩ := List.exists_cons_of_ne_nil fun hnil : ts' = [] => by simp [hnil, words] at hwords
    obtain ⟨hword, hwords⟩ := List.cons.inj hwords
    cases h' with
    | @head _ y' _ _ _ hstep' hsteps' =>
      obtain ⟨hfirst, hrest⟩ := hstep.withoutGap hgap hlast hstep' hword
      have hlast' : Token.operandMayFollow y'.last = Token.operandMayFollow y.last := by
        rw [hstep.last, hstep'.last, Token.operandMayFollow_of_word hword]
      have haligned := hsteps.aligned hsteps' hwords (v := []) (by rw [hrest, List.append_nil]) nofun hlast'
      rw [List.append_nil, List.append_nil] at haligned
      exact .head hfirst haligned.1

end Behind

/-! ## Interpreter lines -/

section Below

variable {a b : List Char}

theorem interpreterLine_of_not_mark (h : ¬ ['#', '!'] <+: a) : interpreterLine a = ⟨[], a⟩ := by
  unfold interpreterLine
  split
  case h_1 r => exact absurd ⟨r, rfl⟩ h
  case h_2 => rfl

/-- An interpreter line that ends before some text ends there, whatever comes behind the text. -/
theorem interpreterLine_before {l w u : List Char} (h : interpreterLine (l ++ (w ++ u)) = ⟨l, w ++ u⟩) (hw : w ≠ [])
    {c : Char} (hc : c ≠ '!') (v : List Char) : interpreterLine (l ++ (w ++ c :: v)) = ⟨l, w ++ c :: v⟩ := by
  by_cases hmark : ['#', '!'] <+: l ++ (w ++ u)
  · obtain ⟨r, hr⟩ := hmark
    rw [← hr] at h
    obtain ⟨hsplit, hin, hout⟩ := takeWhile_eq_iff.mp h
    obtain ⟨e, w, rfl⟩ := List.exists_cons_of_ne_nil hw
    obtain rfl : e = '\n' := by simpa using hout e rfl
    match l with
    | [] => cases hsplit
    | [_] => simp at hsplit
    | c₁ :: c₂ :: l =>
      obtain ⟨rfl, rfl⟩ : c₁ = '#' ∧ c₂ = '!' := by
        have hsplit' := hsplit
        simp at hsplit'
        exact ⟨hsplit'.1.symm, hsplit'.2.1.symm⟩
      exact takeWhile_eq_iff.mpr ⟨rfl, hin, fun d hd => hout d hd⟩
  · rw [interpreterLine_of_not_mark hmark] at h
    obtain ⟨rfl, -⟩ := Split.mk.inj h
    refine interpreterLine_of_not_mark fun hbehind => hmark ?_
    match w, hw with
    | [_], _ => simp [hc.symm] at hbehind
    | _ :: _ :: _, _ => simpa using hbehind

/-- An interpreter line is the first line, whatever comes on the lines below. -/
theorem interpreterLine_below (ha : (interpreterLine a).rest ≠ []) (b : List Char) :
    interpreterLine (a ++ '\n' :: b) = ⟨(interpreterLine a).text, (interpreterLine a).rest ++ '\n' :: b⟩ := by
  have hbefore := interpreterLine_before (l := (interpreterLine a).text) (w := (interpreterLine a).rest) (u := [])
    (by rw [List.append_nil, interpreterLine_append]) ha (c := '\n') (by decide) b
  rwa [← List.append_assoc, interpreterLine_append] at hbefore

end Below

/-! ## Two texts -/

section Joined

variable {a b : List Char} {ta tb tc : List Token}

theorem Place.first_of_not_mark (hb : ¬ ['#', '!'] <+: b) : Place.first b = ⟨none, .start, b⟩ := by
  rw [Place.first, interpreterLine_of_not_mark hb]
  rfl

theorem Place.first_below (ha : (Place.first a).rest ≠ []) (b : List Char) :
    Place.first (a ++ '\n' :: b) = ⟨none, (Place.first a).position, (Place.first a).rest ++ '\n' :: b⟩ := by
  rw [Place.first, interpreterLine_below ha]
  rfl

/-- What is read up to a semicolon at the end leaves a gap. -/
theorem exists_steps_of_run (ha : run jsx a = .ok (ts ++ [t])) :
    ∃ q g d, Steps jsx (Place.first a) (ts ++ [t]) ⟨some t, q, g⟩ ∧ Gap.scan g = .ok ⟨g, d, []⟩ ∧
      (Place.first a).rest ≠ [] := by
  obtain ⟨⟨l, q, g⟩, hsteps, g', d, hgap⟩ := run_eq_ok_iff_steps.mp ha
  obtain rfl : g = g' := by simpa using (Gap.scan_isGap _ hgap).1
  obtain ⟨y, -, hlast⟩ := hsteps.exists_append
  cases hlast with
  | head hstep hnil =>
    cases hnil
    obtain rfl := hstep.last
    refine ⟨q, g, d, hsteps, hgap, fun hnil => ?_⟩
    have hlength := hsteps.length_le
    rw [hnil, List.length_append, List.length_singleton] at hlength
    exact absurd hlength (by simp)

theorem operandMayFollow_semicolon (ht : t.isPunct ";" = true) : Token.operandMayFollow (some t) = true := by
  obtain ⟨hkind, htext⟩ : t.kind = .punct ∧ t.text = ";" := by simpa [Token.isPunct] using ht
  simp [Token.operandMayFollow, hkind, htext]

/-- Where both texts are read in one way, their tokens are read in this way from the one below the other. -/
theorem run_below (ha : run jsx a = .ok (ts ++ [t])) (ht : t.isPunct ";" = true) (hb : run jsx b = .ok tb)
    (hmark : ¬ ['#', '!'] <+: b) :
    ∃ tc, run jsx (a ++ '\n' :: b) = .ok tc ∧ words tc = words (ts ++ [t] ++ tb) := by
  obtain ⟨q, g, d, hsteps, hgap, hne⟩ := exists_steps_of_run ha
  obtain ⟨z, hstepsb, hend⟩ := run_eq_ok_iff_steps.mp hb
  rw [Place.first_of_not_mark hmark] at hstepsb
  obtain ⟨w, hrest, hbehind⟩ := hsteps.semicolon ht
  have hfirst := Place.first_below hne b
  rw [hrest, List.append_assoc, List.append_cons g] at hfirst
  have hjoined := hbehind (g ++ ['\n'] ++ b)
  obtain ⟨tb', z', hbelow, hwords, hend'⟩ := hstepsb.behindGap (Gap.goesBefore_below hgap) (operandMayFollow_semicolon ht) q hend
  refine ⟨ts ++ [t] ++ tb', run_eq_ok_iff_steps.mpr ⟨z', ?_, hend'⟩, ?_⟩
  · rw [hfirst]
    exact hjoined.append hbelow
  · rw [words_append, words_append _ tb, hwords]

/-- Where the words of two texts are read from the one below the other, each of the texts is read in this way. -/
theorem run_of_below (ha : run jsx a = .ok (ts ++ [t])) (ht : t.isPunct ";" = true) (hb : run jsx' b = .ok tb)
    (hmark : ¬ ['#', '!'] <+: b) {mode : Bool} (h : run mode (a ++ '\n' :: b) = .ok tc)
    (hwords : words tc = words (ts ++ [t] ++ tb)) : run mode a = .ok (ts ++ [t]) ∧ run mode b = .ok tb := by
  obtain ⟨q, g, d, hsteps, hgap, hne⟩ := exists_steps_of_run ha
  obtain ⟨z, hstepsb, hend⟩ := run_eq_ok_iff_steps.mp hb
  rw [Place.first_of_not_mark hmark] at hstepsb
  obtain ⟨zc, hstepsc, hendc⟩ := run_eq_ok_iff_steps.mp h
  rw [words_append] at hwords
  obtain ⟨above, below, rfl, habove, hbelow⟩ := List.map_eq_append_iff.mp hwords
  obtain ⟨⟨l, p, rest⟩, hstepsa, hstepsb'⟩ := hstepsc.exists_append
  rw [Place.first_below hne] at hstepsa
  obtain ⟨haligned, hrest, hlast⟩ := hsteps.aligned hstepsa habove (v := '\n' :: b) rfl (by simp) rfl
  dsimp only at haligned hrest hlast
  subst hrest
  constructor
  · obtain ⟨w, hw, hbehind⟩ := haligned.semicolon ht
    rw [← List.append_assoc] at hw
    have hwhole : (Place.first a).rest = w ++ g := List.append_cancel_right hw
    have hstepsa' := hbehind g
    rw [← hwhole] at hstepsa'
    exact run_eq_ok_iff_steps.mpr ⟨_, hstepsa', g, d, hgap⟩
  · have hlast' : Token.operandMayFollow l = Token.operandMayFollow none := by
      rw [hlast, operandMayFollow_semicolon ht]
      rfl
    refine run_eq_ok_iff_steps.mpr ⟨z, ?_, hend⟩
    rw [Place.first_of_not_mark hmark]
    rw [List.append_cons] at hstepsb'
    exact hstepsb.withoutGap (Gap.goesBefore_below hgap) hlast' hstepsb' hbelow

end Joined

/-! ## Whole texts -/

/-- The marks of a closing tag stand on one side of any other character. -/
theorem mayHaveElements_between {q : Char} (hq : q ∉ ['<', '/', '>']) (a b : List Char) :
    mayHaveElements (a ++ q :: b) = (mayHaveElements a || mayHaveElements b) := by
  obtain ⟨hopen, hslash, hclose⟩ : q ≠ '<' ∧ q ≠ '/' ∧ q ≠ '>' := by simpa using hq
  have hpart {c d : Char} (hc : q ≠ c) (hd : q ≠ d) :
      Text.hasPart [c, d] (a ++ q :: b) = (Text.hasPart [c, d] a || Text.hasPart [c, d] b) := by
    rw [Bool.eq_iff_iff, ← not_iff_not, Bool.not_eq_true, Bool.not_eq_true, Bool.or_eq_false_iff]
    rw [Import.Woven.hasPart_pair, Import.Woven.hasPart_pair, Import.Woven.hasPart_pair, Import.Woven.apart_between hc hd]
  rw [mayHaveElements, mayHaveElements, mayHaveElements, hpart hopen hslash, hpart hslash hclose]
  cases Text.hasPart ['<', '/'] a <;> cases Text.hasPart ['<', '/'] b <;> simp

/-- The marks of a closing tag stand in one of the texts. -/
theorem mayHaveElements_below (a b : List Char) :
    mayHaveElements (a ++ '\n' :: b) = (mayHaveElements a || mayHaveElements b) :=
  mayHaveElements_between (by decide) a b

end Lexer

open Lexer

/-- The tokens of an element that is assigned to a name. -/
def assignedElement : List Token :=
  [⟨.ident, "e", "", ⟨0, 1, 1⟩, none⟩, ⟨.punct, "=", "", ⟨1, 1, 2⟩, none⟩, ⟨.jsx, "<p/>", "", ⟨2, 1, 3⟩, none⟩,
    ⟨.punct, ";", "", ⟨6, 1, 7⟩, none⟩]

/-- A text that is read without elements, as its angle brackets are no tags. -/
def genericArrow : String := "f = <T>(x) => x;"

/-- A text that is read with elements. -/
def element : String := "e = <p>a</p>;"

end AppBundler
