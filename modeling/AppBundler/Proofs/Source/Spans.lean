import AppBundler.Proofs.Source.Reading
/-!
# Tokens cover their source

Reading loses nothing. Each token stands in the source where its place says that it stands, line and column are
those that are counted from the start, and between the tokens there is nothing but blanks and complete comments.
What a token knows of the gap before it is what is in that gap.
-/

namespace AppBundler

/-! ## Places -/

namespace Text

theorem byteLength_cons (c : Char) (s : List Char) : byteLength (c :: s) = c.utf8Size + byteLength s := by
  have hfold (s : List Char) (n : Nat) : s.foldl (fun n c => n + c.utf8Size) n = n + byteLength s := by
    induction s generalizing n with
    | nil => rfl
    | cons d s ih => rw [byteLength, List.foldl_cons, List.foldl_cons, ih, ih (0 + d.utf8Size)]; omega
  rw [byteLength, List.foldl_cons, hfold, Nat.zero_add]

theorem byteLength_append (s t : List Char) : byteLength (s ++ t) = byteLength s + byteLength t := by
  induction s with
  | nil => simp [byteLength]
  | cons c s ih => rw [List.cons_append, byteLength_cons, byteLength_cons, ih, Nat.add_assoc]

/-- The bytes of a text are those of its characters. -/
theorem utf8ByteSize_eq (s : String) : s.utf8ByteSize = byteLength s.toList := by
  induction hs : s.toList generalizing s with
  | nil =>
    obtain rfl : s = "" := by rw [← String.ofList_toList (s := s), hs]
    rfl
  | cons c t ih =>
    have happend : s = String.singleton c ++ String.ofList t := by
      rw [← String.ofList_toList (s := s), hs]
      apply String.toList_injective
      simp
    rw [happend, String.utf8ByteSize_append, ih (String.ofList t) String.toList_ofList, byteLength_cons]
    simp

end Text

namespace Position

/-- The line that a text ends in, as far as it goes. -/
def lineOf (s : List Char) : List Char := (s.reverse.takeWhile (· ≠ '\n')).reverse

/-- The place behind a text, counted in it: its bytes, its line feeds and the characters of its last line. -/
def counted (s : List Char) : Position := ⟨Text.byteLength s, s.count '\n' + 1, (lineOf s).length + 1⟩

theorem step_counted (s : List Char) (c : Char) : (counted s).step c = counted (s ++ [c]) := by
  have hbytes : Text.byteLength [c] = c.utf8Size := by simp [Text.byteLength]
  unfold step counted
  by_cases hc : c = '\n'
  · simp [hc, lineOf, Text.byteLength]
  · simp [hc, Text.byteLength_append, lineOf, hbytes]

/-- **A place is what is counted** in the text before it. -/
theorem start_after (s : List Char) : start.after s = counted s := by
  have hafter (done : List Char) : (counted done).after s = counted (done ++ s) := by
    induction s generalizing done with
    | nil => simp [after]
    | cons c s ih => rw [after, List.foldl_cons, step_counted, ← after, ih]; simp
  exact hafter []

end Position

/-! ## Gaps -/

/-- A text of blanks and complete comments, with the body of the last documentation comment in it that is not empty.
A line comment is complete with the line feed behind it, or where the source ends. -/
inductive IsGap (sourceEnds : Bool) : List Char → Option (List Char) → Prop where
  | nil : IsGap sourceEnds [] none
  | blank {c : Char} {g : List Char} {d : Option (List Char)} (hc : isBlank c = true) (h : IsGap sourceEnds g d) :
    IsGap sourceEnds (c :: g) d
  | line {body g : List Char} {d : Option (List Char)} (hbody : '\n' ∉ body) (h : IsGap sourceEnds ('\n' :: g) d) :
    IsGap sourceEnds ('/' :: '/' :: (body ++ '\n' :: g)) d
  | lastLine {body : List Char} (hbody : '\n' ∉ body) (hends : sourceEnds = true) :
    IsGap sourceEnds ('/' :: '/' :: body) none
  | block {body g : List Char} {d : Option (List Char)} (hbody : ¬ ['*', '/'] <:+: body)
    (hplain : ∀ c r, body ≠ '*' :: c :: r) (h : IsGap sourceEnds g d) :
    IsGap sourceEnds ('/' :: '*' :: (body ++ '*' :: '/' :: g)) d
  | doc {body g : List Char} {d : Option (List Char)} (hbody : ¬ ['*', '/'] <:+: '*' :: body) (hne : body ≠ [])
    (h : IsGap sourceEnds g d) :
    IsGap sourceEnds ('/' :: '*' :: '*' :: (body ++ '*' :: '/' :: g)) (d.or (some body))

/-- A block comment goes up to its first end. -/
theorem IsGap.ofBlock {sourceEnds : Bool} {body g : List Char} {d : Option (List Char)}
    (hbody : ¬ ['*', '/'] <:+: body) (h : IsGap sourceEnds g d) :
    IsGap sourceEnds ('/' :: '*' :: (body ++ '*' :: '/' :: g)) (d.or (Gap.docOf body)) := by
  by_cases hplain : ∃ c r, body = '*' :: c :: r
  · obtain ⟨c, r, rfl⟩ := hplain
    exact .doc hbody (List.cons_ne_nil c r) h
  · have hnone : Gap.docOf body = none := by
      unfold Gap.docOf
      split
      case h_1 c r => exact absurd ⟨c, r, rfl⟩ hplain
      case h_2 => rfl
    rw [hnone, Option.or_none]
    exact .block hbody (fun c r heq => hplain ⟨c, r, heq⟩) h

namespace Gap

/-- **What is read as a gap is one**, and no more than that is read. -/
theorem scan_isGap (s : List Char) {g r : List Char} {d : Option (List Char)} (hs : scan s = .ok ⟨g, d, r⟩) :
    s = g ++ r ∧ IsGap r.isEmpty g d := by
  revert g r d
  -- what the two readers inside comments leave open is closed by the comment's beginning
  refine Gap.scan.induct (fun s => ∀ {g r d}, scan s = .ok ⟨g, d, r⟩ → s = g ++ r ∧ IsGap r.isEmpty g d)
    (fun rev s => ∀ {g r d}, scanBlock rev s = .ok ⟨g, d, r⟩ → s = g ++ r ∧ ∃ body g' d', g = body ++ '*' :: '/' :: g' ∧
      ¬ ['*', '/'] <:+: body ∧ IsGap r.isEmpty g' d' ∧ d = d'.or (docOf (rev.reverse ++ body)))
    (fun s => ∀ {g r d}, scanLine s = .ok ⟨g, d, r⟩ → s = g ++ r ∧ ∃ body, '\n' ∉ body ∧
      ((∃ g', g = body ++ '\n' :: g' ∧ IsGap r.isEmpty ('\n' :: g') d) ∨ g = body ∧ r = [] ∧ d = none))
    ?lineComment ?blockComment ?theEnd ?blank ?token ?openBlock ?closeBlock ?inBlock ?endLine ?closeLine ?inLine s
  case lineComment =>
    intro s ih g r d h
    rw [scan] at h
    obtain ⟨g, hg, rfl⟩ := precede_eq_ok_iff.mp h
    obtain ⟨rfl, body, hbody, ⟨g', rfl, hgap⟩ | ⟨rfl, rfl, rfl⟩⟩ := ih hg
    · exact ⟨rfl, .line hbody hgap⟩
    · exact ⟨rfl, .lastLine hbody rfl⟩
  case blockComment =>
    intro s ih g r d h
    rw [scan] at h
    obtain ⟨g, hg, rfl⟩ := precede_eq_ok_iff.mp h
    obtain ⟨rfl, body, g', d', rfl, hbody, hgap, rfl⟩ := ih hg
    exact ⟨by simp, IsGap.ofBlock hbody hgap⟩
  case theEnd =>
    intro g r d h
    cases h
    exact ⟨rfl, .nil⟩
  case blank =>
    intro c s hline hblock hblank ih g r d h
    rw [scan, if_pos hblank] at h
    · obtain ⟨g, hg, rfl⟩ := precede_eq_ok_iff.mp h
      obtain ⟨rfl, hgap⟩ := ih hg
      exact ⟨rfl, .blank hblank hgap⟩
    · exact hline
    · exact hblock
  case token =>
    intro c s hline hblock hblank g r d h
    rw [scan, if_neg hblank] at h
    · cases h
      exact ⟨rfl, .nil⟩
    · exact hline
    · exact hblock
  case openBlock =>
    intro rev g r d h
    cases h
  case closeBlock =>
    intro rev s ih g r d h
    rw [scanBlock] at h
    obtain ⟨d', hd, rfl⟩ := withDoc_eq_ok_iff.mp h
    obtain ⟨g', hg, rfl⟩ := precede_eq_ok_iff.mp hd
    obtain ⟨rfl, hgap⟩ := ih hg
    exact ⟨rfl, [], g', d', rfl, by simp, hgap, by simp⟩
  case inBlock =>
    intro rev c s hopen ih g r d h
    rw [scanBlock] at h
    · obtain ⟨g, hg, rfl⟩ := precede_eq_ok_iff.mp h
      obtain ⟨rfl, body, g', d', rfl, hbody, hgap, rfl⟩ := ih hg
      refine ⟨rfl, c :: body, g', d', rfl, ?_, hgap, by simp⟩
      rw [List.infix_cons_iff, not_or]
      refine ⟨?_, hbody⟩
      rintro ⟨t, ht⟩
      obtain ⟨rfl, rfl⟩ := List.cons.inj ht
      exact hopen _ rfl rfl
    · exact hopen
  case endLine =>
    intro g r d h
    cases h
    exact ⟨rfl, [], by simp, Or.inr ⟨rfl, rfl, rfl⟩⟩
  case closeLine =>
    intro s ih g r d h
    rw [scanLine, if_pos rfl] at h
    obtain ⟨g, hg, rfl⟩ := precede_eq_ok_iff.mp h
    obtain ⟨rfl, hgap⟩ := ih hg
    exact ⟨rfl, [], by simp, Or.inl ⟨g, rfl, .blank (by decide) hgap⟩⟩
  case inLine =>
    intro c s hc ih g r d h
    rw [scanLine, if_neg hc] at h
    obtain ⟨g, hg, rfl⟩ := precede_eq_ok_iff.mp h
    obtain ⟨rfl, body, hbody, hrest⟩ := ih hg
    refine ⟨rfl, c :: body, by simp [Ne.symm hc, hbody], ?_⟩
    rcases hrest with ⟨g', rfl, hgap⟩ | ⟨rfl, rfl, rfl⟩
    · exact Or.inl ⟨g', rfl, hgap⟩
    · exact Or.inr ⟨rfl, rfl, rfl⟩

end Gap

/-! ## Tokens -/

/-- What may stand behind `k` bytes before a token, or before the end of the source: a gap, and at the very beginning
an interpreter line before it. -/
def IsGapAt (sourceEnds : Bool) (k : Nat) (g : List Char) (d : Option (List Char)) : Prop :=
  IsGap sourceEnds g d ∨ k = 0 ∧ ∃ line rest, g = '#' :: '!' :: (line ++ rest) ∧ '\n' ∉ line ∧
    (∀ c ∈ rest.head?, c = '\n') ∧ (rest = [] → sourceEnds = true) ∧ IsGap sourceEnds rest d

/-- A token stands in a source behind `k` bytes with nothing but a gap before it. -/
def Token.StandsIn (source : String) (k : Nat) (t : Token) : Prop :=
  ∃ before gap behind : List Char, source.toList = before ++ (gap ++ (t.text.toList ++ behind)) ∧
    Text.byteLength before = k ∧ t.text.toList ≠ [] ∧ t.start = .counted (before ++ gap) ∧
    (t.newlineBefore = true ↔ '\n' ∈ gap) ∧ ∃ doc, IsGapAt false k gap doc ∧ t.doc = doc.map String.ofList

/-- Tokens stand in a source one behind the other from `k` bytes on, and behind the last one stands only a gap. -/
inductive CoverFrom (source : String) : Nat → List Token → Prop where
  | nil {k : Nat} {before gap : List Char} {doc : Option (List Char)} (hsource : source.toList = before ++ gap)
    (hk : Text.byteLength before = k) (hgap : IsGapAt true k gap doc) : CoverFrom source k []
  | cons {k : Nat} {t : Token} {ts : List Token} (ht : t.StandsIn source k) (hts : CoverFrom source t.endOffset ts) :
    CoverFrom source k (t :: ts)

namespace Token

variable {source : String} {k : Nat} {t : Token}

/-- A token begins no sooner than behind the bytes that it stands behind. -/
theorem StandsIn.le_start (h : t.StandsIn source k) : k ≤ t.start.offset := by
  obtain ⟨before, gap, behind, -, rfl, -, hstart, -⟩ := h
  rw [hstart, Position.counted, Text.byteLength_append]
  exact Nat.le_add_right _ _

/-- The span of a token is not empty. -/
theorem StandsIn.start_lt_end (h : t.StandsIn source k) : t.start.offset < t.endOffset := by
  obtain ⟨before, gap, behind, -, -, hne, -⟩ := h
  obtain ⟨c, r, hcr⟩ := List.exists_cons_of_ne_nil hne
  have hpos := c.utf8Size_pos
  rw [endOffset, Text.utf8ByteSize_eq, hcr, Text.byteLength_cons]
  omega

end Token

namespace CoverFrom

variable {source : String} {k : Nat} {ts : List Token}

/-- Tokens from `k` bytes on begin no sooner. -/
theorem le_start (h : CoverFrom source k ts) : ∀ t ∈ ts, k ≤ t.start.offset := by
  induction h with
  | nil => intro t ht; cases ht
  | cons ht _ ih =>
    intro u hu
    rcases List.mem_cons.mp hu with rfl | hu
    · exact ht.le_start
    · have hstart := ht.le_start
      have hlt := ht.start_lt_end
      have hle := ih u hu
      omega

/-- Spans are not empty. -/
theorem start_lt_end (h : CoverFrom source k ts) : ∀ t ∈ ts, t.start.offset < t.endOffset := by
  induction h with
  | nil => intro t ht; cases ht
  | cons ht _ ih =>
    intro u hu
    rcases List.mem_cons.mp hu with rfl | hu
    · exact ht.start_lt_end
    · exact ih u hu

/-- Each token ends before those behind it begin. -/
theorem disjoint (h : CoverFrom source k ts) : ts.Pairwise fun t u => t.endOffset ≤ u.start.offset := by
  induction h with
  | nil => exact .nil
  | cons _ hts ih => exact .cons hts.le_start ih

end CoverFrom

namespace Lexer

variable {jsx : Bool} {source : String} {x y : Place} {t : Token} {ts : List Token}

/-- Where a place is in a source: `before` has been read, but for the interpreter line `line`, which counts for the
gap behind it. -/
structure Place.At (x : Place) (source : String) (before line : List Char) : Prop where
  source_eq : source.toList = before ++ (line ++ x.rest)
  position : x.position = .counted (before ++ line)
  /-- There is an interpreter line at the very beginning only, up to the end of the first line. -/
  line : line = [] ∨ before = [] ∧ ∃ r, line = '#' :: '!' :: r ∧ '\n' ∉ r ∧ ∀ c ∈ x.rest.head?, c = '\n'

/-- The interpreter line and the gap behind it are what may stand there. -/
theorem Place.At.isGapAt {before line : List Char} (h : x.At source before line) {sourceEnds : Bool} {g r : List Char}
    {d : Option (List Char)} (hrest : x.rest = g ++ r) (hgap : IsGap sourceEnds g d) (hr : g = [] → r ≠ [] → r.head? ≠ some '\n')
    (hends : r = [] → sourceEnds = true) : IsGapAt sourceEnds (Text.byteLength before) (line ++ g) d := by
  rcases h.line with rfl | ⟨rfl, body, rfl, hbody, hhead⟩
  · exact Or.inl hgap
  · refine Or.inr ⟨rfl, body, g, rfl, hbody, ?_, ?_, hgap⟩
    · intro c hc
      obtain ⟨u, rfl⟩ := List.head?_eq_some_iff.mp hc
      exact hhead c (by rw [hrest]; rfl)
    · rintro rfl
      refine hends (Classical.byContradiction fun hne => ?_)
      obtain ⟨c, u, rfl⟩ := List.exists_cons_of_ne_nil hne
      exact hr rfl hne (by rw [hhead c (by rw [hrest]; rfl)]; rfl)

/-- A token begins behind the gap before it. -/
theorem Step.start_counted (h : Step jsx x t y) {before line : List Char} (hx : x.At source before line) :
    t.start = .counted (before ++ (line ++ t.gap.toList)) := by
  rw [h.start, hx.position, ← Position.start_after, ← Position.start_after, ← List.append_assoc before]
  exact List.foldl_append.symm

/-- A step goes over a token that stands there, to the place behind it. -/
theorem Step.standsIn (h : Step jsx x t y) {before line : List Char} (hx : x.At source before line) :
    t.StandsIn source (Text.byteLength before) ∧
      y.At source (before ++ (line ++ t.gap.toList) ++ t.text.toList) [] := by
  obtain ⟨doc, hscan, hdoc⟩ := h.gap
  obtain ⟨hrest, hgap⟩ := Gap.scan_isGap _ hscan
  rw [List.isEmpty_eq_false_iff.mpr h.nonempty] at hgap
  have hsource : source.toList = before ++ (line ++ t.gap.toList ++ (t.text.toList ++ y.rest)) := by
    rw [hx.source_eq, hrest, List.append_assoc line]
  have hstart := h.start_counted hx
  refine ⟨⟨before, line ++ t.gap.toList, y.rest, hsource, rfl, h.text_ne_nil, hstart, ?_, doc, ?_, hdoc⟩, ?_, ?_, Or.inl rfl⟩
  · -- a line feed is no part of the interpreter line
    have hline : '\n' ∉ line := by
      rcases hx.line with rfl | ⟨-, body, rfl, hbody, -⟩
      · simp
      · simpa using hbody
    simp [Token.newlineBefore, hline]
  · refine hx.isGapAt hrest hgap (fun _ hne => ?_) (fun hnil => absurd hnil h.nonempty)
    -- a line feed would have been read into the gap
    obtain ⟨c, r, hcr⟩ := List.exists_cons_of_ne_nil hne
    have hstop := ((Gap.readsOn _).1 hscan hne).2.1
    rw [hcr] at hstop ⊢
    have hblank := (Gap.scan_eq_nil_iff.mp hstop).1
    intro hfeed
    rw [Option.some.inj hfeed] at hblank
    exact absurd hblank (by decide)
  · rw [hsource]
    simp only [List.append_assoc, List.nil_append]
  · rw [h.position, hstart, ← Position.start_after, ← Position.start_after, List.append_nil]
    exact List.foldl_append.symm

/-- A reading that yields nothing has read a gap up to the end. -/
theorem scan_of_from?_nil {n : Nat} (h : from? jsx n x = .ok []) : ∃ g d, Gap.scan x.rest = .ok ⟨g, d, []⟩ := by
  cases n with
  | zero => cases h
  | succ n =>
    rw [from?, tokensFrom] at h
    cases hgap : Gap.scan x.rest with
    | error f => simp [hgap] at h
    | ok gap =>
      obtain ⟨g, d, r⟩ := gap
      cases r with
      | nil => exact ⟨g, d, rfl⟩
      | cons c r =>
        simp only [hgap, List.isEmpty_cons, Bool.false_eq_true, if_false] at h
        cases hlexeme : lexeme jsx (Token.operandMayFollow x.last) (c :: r) with
        | error f => simp [hlexeme] at h
        | ok found =>
          simp only [hlexeme] at h
          split at h <;> cases h

/-- The tokens that are read from a place on cover the source from there on. -/
theorem coverFrom_of_from? {n : Nat} {before line : List Char} (hx : x.At source before line)
    (h : from? jsx n x = .ok ts) : CoverFrom source (Text.byteLength before) ts := by
  induction ts generalizing n x before line with
  | nil =>
    obtain ⟨g, d, hscan⟩ := scan_of_from?_nil h
    obtain ⟨hrest, hgap⟩ := Gap.scan_isGap _ hscan
    have hsource : source.toList = before ++ (line ++ g) := by rw [hx.source_eq, hrest, List.append_nil]
    exact .nil hsource rfl (hx.isGapAt hrest hgap (fun _ hne => absurd rfl hne) fun _ => rfl)
  | cons t ts ih =>
    obtain ⟨m, y, -, hstep, hrest⟩ := exists_step h
    obtain ⟨ht, hy⟩ := hstep.standsIn hx
    refine .cons ht ?_
    have hend : t.endOffset = Text.byteLength (before ++ (line ++ t.gap.toList) ++ t.text.toList) := by
      rw [Text.byteLength_append, Token.endOffset, Text.utf8ByteSize_eq, hstep.start_counted hx]
      rfl
    rw [hend]
    exact ih hy hrest

/-- A text is read from the place behind its interpreter line on. -/
theorem run_eq_ok_iff {s : List Char} : run jsx s = .ok ts ↔ from? jsx (s.length + 1)
    ⟨none, Position.start.after (interpreterLine s).text, (interpreterLine s).rest⟩ = .ok ts := Iff.rfl

/-- The mark of an interpreter line belongs to its line. -/
theorem lineRest_mark (r : List Char) : Lexeme.lineRest ('#' :: '!' :: r) =
    ⟨'#' :: '!' :: (Lexeme.lineRest r).text, (Lexeme.lineRest r).rest⟩ := rfl

/-- The place behind the interpreter line. -/
theorem at_interpreterLine (source : String) (last : Option Token) :
    (Place.mk last (Position.start.after (interpreterLine source.toList).text) (interpreterLine source.toList).rest).At
      source [] (interpreterLine source.toList).text := by
  unfold interpreterLine
  split
  case h_1 r hr =>
    obtain ⟨line, rest, hline⟩ : ∃ line rest, Lexeme.lineRest r = ⟨line, rest⟩ := ⟨_, _, rfl⟩
    have hfirst := lineRest_mark r
    rw [hline] at hfirst
    obtain ⟨rfl, hbody, hhead⟩ := Lexeme.takeWhile_eq_iff.mp hline
    rw [hr, hfirst]
    refine ⟨hr, Position.start_after _, Or.inr ⟨rfl, line, rfl, ?_, ?_⟩⟩
    · exact fun hfeed => by simpa using hbody _ hfeed
    · exact fun c hc => by simpa using hhead c hc
  case h_2 => exact ⟨rfl, rfl, Or.inl rfl⟩

end Lexer

/-- **Reading loses nothing.** Tokens cover their source from its first byte on: each one is the text at its span, its
place is the one that is counted in the text before it, and between the tokens, before the first and behind the last
there is only a gap, of which the token behind it knows the line feeds and the last documentation comment. The spans
are not empty and follow each other. -/
theorem tokenize_covers {source : String} {ts : List Token} (h : tokenize source = .ok ts) :
    CoverFrom source 0 ts ∧ (∀ t ∈ ts, t.start.offset < t.endOffset) ∧
      ts.Pairwise fun t u => t.endOffset ≤ u.start.offset := by
  have hrun : ∃ jsx, Lexer.run jsx source.toList = .ok ts := by
    rw [tokenize, Lexer.tokens] at h
    split at h
    case isTrue =>
      split at h
      case h_1 us hus => exact ⟨true, hus.trans h⟩
      case h_2 => exact ⟨false, h⟩
    case isFalse => exact ⟨false, h⟩
  obtain ⟨jsx, hrun⟩ := hrun
  have hcover : CoverFrom source 0 ts :=
    Lexer.coverFrom_of_from? (Lexer.at_interpreterLine source none) (Lexer.run_eq_ok_iff.mp hrun)
  exact ⟨hcover, hcover.start_lt_end, hcover.disjoint⟩

/-- A source with an interpreter line, two documentation comments and characters of several bytes. -/
def documented : String := "#! é\n/** a */ /** é\n*/ é"

/-- Its only token. -/
def documentedToken : Token := ⟨.ident, "é", "\n/** a */ /** é\n*/ ", ⟨25, 3, 4⟩, some " é\n"⟩

/-- The token behind two documentation comments knows the second one. -/
theorem tokenize_covers_documented : tokenize documented = .ok [documentedToken] ∧
    CoverFrom documented 0 [documentedToken] ∧ (∀ t ∈ [documentedToken], t.start.offset < t.endOffset) ∧
      [documentedToken].Pairwise fun t u => t.endOffset ≤ u.start.offset := by
  have h : tokenize documented = .ok [documentedToken] := by decide +kernel
  exact ⟨h, tokenize_covers h⟩

end AppBundler
