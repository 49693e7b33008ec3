import AppBundler.Proofs.Bundle.Placeholders
import AppBundler.Proofs.Source.Braces
import AppBundler.Proofs.Source.Tree.Layout
/-!
# Placeholders as expressions

A placeholder is meant as an expression of five tokens, for which a string literal comes. But it is looked for in the
characters of a text. It is found inside a longer name, behind a point and in a literal, and it is not found in front of
a mark that is part of a word and of no name. The tokens are what they should be just when placeholders stand where
their expressions are and at no other character of a token, and no elements are found in the new text.
-/

namespace AppBundler

open Lexeme Lexer

namespace Placeholder

/-! ## Expressions -/

/-- The value of a setting that may be asked for by its name. -/
def setting? (v : PlaceholderValues) (name : String) : Option String :=
  if name = "APPLET_RPC_HOST" then v.rpcHost else if name = "APPLET_HMAC_SECRET" then v.hmacSecret else none

/-- Five tokens with nothing between them are a name in the process environment. Behind a point they would be members of
something else. -/
def isExpression (last : Option Token) (a b c d e : Token) : Bool :=
  a.isIdent "process" && b.isPunct "." && c.isIdent "env" && d.isPunct "." && e.kind = .ident &&
    [b, c, d, e].all (·.gap = "") && !last.any (·.isPunctOf [".", "?."])

/-- The value that is asked for by the first of some tokens. -/
def asked? (v : PlaceholderValues) (last : Option Token) : List Token → Option String
  | a :: b :: c :: d :: e :: _ => if isExpression last a b c d e then setting? v e.text else none
  | _ => none

/-- Each expression that asks for a value is replaced by one string literal for it, and all other words are kept. -/
inductive Substituted (v : PlaceholderValues) : (last : Option Token) → List Token → List Token → Prop where
  | nil {last : Option Token} : Substituted v last [] []
  | keep {last : Option Token} {t t' : Token} {ts ts' : List Token} (hnone : asked? v last (t :: ts) = none)
    (hword : t'.word = t.word) (h : Substituted v (some t) ts ts') : Substituted v last (t :: ts) (t' :: ts')
  | fill {last : Option Token} {a b c d e t' : Token} {ts ts' : List Token} {value : String}
    (hasked : asked? v last (a :: b :: c :: d :: e :: ts) = some value) (hvalue : t'.stringValue? = some value)
    (h : Substituted v (some e) ts ts') : Substituted v last (a :: b :: c :: d :: e :: ts) (t' :: ts')

/-- Placeholders stand in a source where the expressions among its tokens are that ask for a value, and at no other
character of a token. -/
inductive MatchesTokens (v : PlaceholderValues) (source : String) : (last : Option Token) → List Token → Prop where
  | nil {last : Option Token} : MatchesTokens v source last []
  | keep {last : Option Token} {t : Token} {ts : List Token} (hnone : asked? v last (t :: ts) = none)
    (hclear : Clear v t.text.toList (t.cut source).2) (h : MatchesTokens v source (some t) ts) :
    MatchesTokens v source last (t :: ts)
  | fill {last : Option Token} {a b c d e : Token} {ts : List Token} {value : String}
    (hasked : asked? v last (a :: b :: c :: d :: e :: ts) = some value) (hends : endsName (e.cut source).2 = true)
    (h : MatchesTokens v source (some e) ts) : MatchesTokens v source last (a :: b :: c :: d :: e :: ts)

/-- What stands behind the last of the tokens of a source. -/
def behind (source : String) (ts : List Token) : List Char :=
  ts.getLast?.elim (interpreterLine source.toList).rest fun t => (t.cut source).2

/-- No value that closes a comment is put between the tokens of a source. -/
def LeavesComments (v : PlaceholderValues) (source : String) (ts : List Token) : Prop :=
  (∀ t ∈ ts, ClosesNone v t.gap.toList) ∧ ClosesNone v (behind source ts)

variable {v : PlaceholderValues} {source : String} {last l : Option Token} {a b c d e t t' : Token}
  {ts ts' : List Token} {value : String} {jsx jsx' operand : Bool} {x y z : Place} {q : Position}
  {p r s before line : List Char}

theorem setting?_cases {name : String} (h : setting? v name = some value) :
    name = "APPLET_RPC_HOST" ∧ v.rpcHost = some value ∨ name = "APPLET_HMAC_SECRET" ∧ v.hmacSecret = some value := by
  unfold setting? at h
  split_ifs at h with hhost hsecret
  · exact .inl ⟨hhost, h⟩
  · exact .inr ⟨hsecret, h⟩

/-- A name that asks for a value makes a placeholder. -/
theorem mem_named_of_setting? {name : String} (h : setting? v name = some value) :
    ("process".toList ++ ('.' :: ("env".toList ++ '.' :: name.toList)), some value) ∈ named v := by
  rcases setting?_cases h with ⟨rfl, hvalue⟩ | ⟨rfl, hvalue⟩
  · rw [← hvalue]
    exact List.mem_cons_self
  · rw [← hvalue]
    exact List.mem_cons_of_mem _ List.mem_cons_self

/-- The name of a setting is no keyword. -/
theorem operandMayFollow_of_setting? (hkind : t.kind = .ident) (h : setting? v t.text = some value) :
    Token.operandMayFollow (some t) = false := by
  rw [Token.operandMayFollow, hkind]
  rcases setting?_cases h with ⟨hname, -⟩ | ⟨hname, -⟩
  all_goals
    rw [hname]
    decide

/-- **An expression spells a placeholder.** -/
theorem exists_place (hasked : asked? v last (a :: b :: c :: d :: e :: ts) = some value)
    (h : Steps jsx x (a :: b :: c :: d :: e :: ts) z) (hx : x.At source before line) :
    ∃ w y place front, Step jsx x a w ∧ Steps jsx y ts z ∧ a.text.toList ++ w.rest = place ++ y.rest ∧
      (place, some value) ∈ named v ∧ Token.operandMayFollow y.last = false ∧ (e.cut source).2 = y.rest ∧
      y.At source front [] := by
  obtain ⟨hexpression, hsetting⟩ : isExpression last a b c d e = true ∧ setting? v e.text = some value := by
    simpa [asked?] using hasked
  simp only [isExpression, Token.isIdent, Token.isPunct, Bool.and_eq_true, decide_eq_true_eq, List.all_cons,
    List.all_nil, Bool.and_true] at hexpression
  obtain ⟨⟨⟨⟨⟨⟨⟨-, ha⟩, -, hb⟩, -, hc⟩, -, hd⟩, he⟩, hgb, hgc, hgd, hge⟩, -⟩ := hexpression
  cases h with
  | @head _ wa _ _ _ hstepa h =>
  cases h with
  | @head _ wb _ _ _ hstepb h =>
  cases h with
  | @head _ wc _ _ _ hstepc h =>
  cases h with
  | @head _ wd _ _ _ hstepd h =>
  cases h with
  | @head _ y _ _ _ hstepe h =>
  obtain ⟨-, hxa⟩ := hstepa.standsIn hx
  obtain ⟨-, hxb⟩ := hstepb.standsIn hxa
  obtain ⟨-, hxc⟩ := hstepc.standsIn hxb
  obtain ⟨-, hxd⟩ := hstepd.standsIn hxc
  obtain ⟨front, hcut, -, hy⟩ := hstepe.cut hxd
  refine ⟨wa, y, _, front, hstepa, h, ?_, mem_named_of_setting? hsetting, ?_, by rw [hcut], hy⟩
  · rw [hstepb.rest_eq, hstepc.rest_eq, hstepd.rest_eq, hstepe.rest_eq, ha, hb, hc, hd, hgb, hgc, hgd, hge]
    simp
  · rw [hstepe.last]
    exact operandMayFollow_of_setting? he hsetting

/-! ## Reading what is filled -/

/-- Where a token begins, one begins when placeholders are filled. -/
theorem scan_replaceFrom_eq_nil (h : Gap.scan s = .ok ⟨[], none, s⟩) :
    Gap.scan (replaceFrom v 0 s) = .ok ⟨[], none, replaceFrom v 0 s⟩ := by
  rcases replaceFrom_eq_or (v := v) s with heq | ⟨w, u, x, rfl, heq⟩
  · rw [heq, h]
  · rw [heq]
    cases w with
    | nil =>
      rw [List.nil_append, Gap.scan_eq_nil_iff]
      exact ⟨by decide, fun hslash => absurd hslash (by decide)⟩
    | cons c w =>
      rw [List.cons_append, Gap.scan_eq_nil_iff] at h ⊢
      refine ⟨h.1, fun hslash => ?_⟩
      have hnext := h.2 hslash
      cases w with
      | nil => rfl
      | cons f w => exact hnext

/-- **A token begins behind the gap** when placeholders are filled in both. -/
theorem scan_replaceFrom (h : Step jsx x t y) (hgap : ClosesNone v t.gap.toList) :
    ∃ g doc, Gap.scan (replaceFrom v 0 x.rest) = .ok ⟨g, doc, replaceFrom v 0 (t.text.toList ++ y.rest)⟩ := by
  obtain ⟨doc, hscan, -⟩ := h.gap
  obtain ⟨hrest, hisGap⟩ := Gap.scan_isGap _ hscan
  rw [List.isEmpty_eq_false_iff.mpr h.nonempty] at hisGap
  obtain ⟨-, hstop, -⟩ := (Gap.readsOn _).1 hscan h.nonempty
  obtain ⟨d', hfilled⟩ := exists_isGap_replaceFrom hisGap hgap
  have happart : replaceFrom v 0 x.rest = replaceFrom v 0 t.gap.toList ++ replaceFrom v 0 (t.text.toList ++ y.rest) := by
    rw [hrest]
    by_cases hnil : t.gap.toList = []
    · rw [hnil]
      rfl
    · obtain ⟨front, k, hfront, hk⟩ := exists_setsApart_of_isGap hisGap hnil
      rw [hfront, List.append_assoc, List.singleton_append, hk.replaceFrom_append, hk.replaceFrom_append]
      simp [replaceFrom]
  refine ⟨replaceFrom v 0 t.gap.toList, d', ?_⟩
  rw [happart, Gap.goesBefore_of_isGap hfilled, scan_replaceFrom_eq_nil hstop]
  simp [Gap.withDoc, Gap.precede]

/-- A lexeme stays one when placeholders are filled behind it. -/
theorem lexeme_replaceFrom {kind : TokenKind} (hp : p ≠ []) (h : lexeme jsx operand (p ++ r) = .ok (kind, ⟨p, r⟩)) :
    lexeme jsx operand (p ++ replaceFrom v 0 r) = .ok (kind, ⟨p, replaceFrom v 0 r⟩) := by
  rcases replaceFrom_eq_or (v := v) r with heq | ⟨w, u, x, rfl, heq⟩
  · rw [heq, h]
  · rw [heq]
    exact lexeme_before (IsBoundary.endsLexeme (.inr (.inr (.inl rfl)))) hp h x

/-- **The tokens of a filled text** where placeholders stand for expressions. -/
theorem MatchesTokens.exists_steps (h : MatchesTokens v source last ts)
    (hvalues : ∀ place value, (place, some value) ∈ named v → ∀ c ∈ value.toList, Json.isPlain c = true)
    (hsteps : Steps jsx x ts z) (hx : x.At source before line) (hgaps : ∀ t ∈ ts, ClosesNone v t.gap.toList)
    (hlast : Token.operandMayFollow l = Token.operandMayFollow x.last) (q : Position) :
    ∃ ts' z', Steps jsx ⟨l, q, replaceFrom v 0 x.rest⟩ ts' z' ∧ z'.rest = replaceFrom v 0 z.rest ∧
      Substituted v last ts ts' := by
  induction h generalizing x before line l q with
  | nil =>
    cases hsteps
    exact ⟨[], _, .refl _, rfl, .nil⟩
  | @keep last t ts hnone hclear _ ih =>
    obtain ⟨hgap, hgaps⟩ := List.forall_mem_cons.mp hgaps
    cases hsteps with
    | @head _ y _ _ _ hstep hsteps =>
    obtain ⟨front, hcut, -, hy⟩ := hstep.cut hx
    rw [hcut] at hclear
    obtain ⟨g, doc, hscan⟩ := scan_replaceFrom hstep hgap
    rw [hclear.replaceFrom_append] at hscan
    have hlexeme := lexeme_replaceFrom (v := v) hstep.text_ne_nil hstep.lexeme
    rw [← hlast] at hlexeme
    obtain ⟨t', hstep', hkind, htext⟩ := exists_step_of_scan hstep.text_ne_nil hscan hlexeme q
    have hword : t'.word = t.word := Token.word_eq_iff.mpr ⟨hkind, by rw [htext, String.ofList_toList]⟩
    have hlast' : Token.operandMayFollow (some t') = Token.operandMayFollow y.last := by
      rw [hstep.last, Token.operandMayFollow_of_word hword]
    obtain ⟨ts', z', hsteps', hz, hsub⟩ := ih hsteps hy hgaps hlast' _
    exact ⟨t' :: ts', z', .head hstep' hsteps', hz, .keep hnone hword hsub⟩
  | @fill last a b c d e ts value hasked hends _ ih =>
    obtain ⟨w, y, place, front, hstep, hsteps, hplace, hmem, hoperand, hcut, hy⟩ := exists_place hasked hsteps hx
    simp only [List.forall_mem_cons] at hgaps
    obtain ⟨hgap, -, -, -, -, hgaps⟩ := hgaps
    rw [hcut] at hends
    have hstands : StandsBefore v place value y.rest := ⟨hmem, hends⟩
    obtain ⟨g, doc, hscan⟩ := scan_replaceFrom hstep hgap
    rw [hplace, hstands.replaceFrom_eq] at hscan
    obtain ⟨t', hstep', hkind, htext⟩ := exists_step_of_scan (by simp [Json.quoted]) hscan (Json.lexeme_quoted value _) q
    have hvalue : t'.stringValue? = some value := by
      rw [← stringValue?_ofText "" (hvalues place value hmem), Token.stringValue?, Token.stringValue?, hkind, htext]
      rfl
    have hlast' : Token.operandMayFollow (some t') = Token.operandMayFollow y.last := by
      rw [hoperand, Token.operandMayFollow, hkind]
    obtain ⟨ts', z', hsteps', hz, hsub⟩ := ih hsteps hy hgaps hlast' _
    exact ⟨t' :: ts', z', .head hstep' hsteps', hz, .fill hasked hvalue hsub⟩

/-! ## Where placeholders stand -/

/-- A text that begins with `p` is read as a name. -/
theorem kind_of_lexeme {kind : TokenKind} (h : lexeme jsx operand ('p' :: s) = .ok (kind, ⟨p, r⟩)) : kind = .ident := by
  have hstart : isIdentStart 'p' = true := by decide +kernel
  have hdigit : 'p'.isDigit = false := by decide
  rw [lexeme] at h
  dsimp only at h
  rw [if_neg (by decide), if_neg (by decide), if_neg (by simp [hdigit]), if_pos hstart] at h
  exact (tagged_eq_ok_iff.mp h).1.symm

/-- Where no name ends behind a placeholder, nothing is filled. -/
theorem here?_eq_none_of_goesOn {place : List Char} (hmem : (place, some value) ∈ named v) (hends : endsName r = false) :
    here? v (place ++ r) = none := by
  rw [here?_eq_none_iff]
  intro place' value' r' heq hstands
  have hsame : place = place' := by
    have hfront : place <+: place' ++ r' := ⟨r, heq⟩
    rcases List.prefix_or_prefix_of_prefix hfront (List.prefix_append place' r') with hle | hle
    · exact (eq_of_mem_named hmem hstands.mem hle).1
    · exact (eq_of_mem_named hstands.mem hmem hle).1.symm
  subst hsame
  have hends' := hstands.ends
  rw [← List.append_cancel_left heq, hends] at hends'
  cases hends'

/-- **Where the tokens of a filled text are those of the text** with its expressions replaced, placeholders stand for
expressions. -/
theorem Substituted.matchesTokens (h : Substituted v last ts ts') (hsteps : Steps jsx x ts z)
    (hx : x.At source before line) (hgaps : ∀ t ∈ ts, ClosesNone v t.gap.toList)
    (hsteps' : Steps jsx' ⟨l, q, replaceFrom v 0 x.rest⟩ ts' y) : MatchesTokens v source last ts := by
  induction h generalizing x before line l q with
  | nil => exact .nil
  | @keep last t t' ts ts' hnone hword _ ih =>
    obtain ⟨hgap, hgaps⟩ := List.forall_mem_cons.mp hgaps
    cases hsteps with
    | @head _ w _ _ _ hstep hsteps =>
    cases hsteps' with
    | @head _ w' _ _ _ hstep' hsteps' =>
    obtain ⟨front, hcut, -, hw⟩ := hstep.cut hx
    obtain ⟨g, doc, hscan⟩ := scan_replaceFrom hstep hgap
    obtain ⟨doc', hscan', -⟩ := hstep'.gap
    -- the same word stands at the front of the text and of the filled one
    have hfilled : replaceFrom v 0 (t.text.toList ++ w.rest) = t'.text.toList ++ w'.rest :=
      (Gap.mk.inj (Except.ok.inj (hscan.symm.trans hscan'))).2.2
    rw [(Token.word_eq_iff.mp hword).2] at hfilled
    have hclear : Clear v t.text.toList w.rest := clear_iff.mpr ⟨_, hfilled⟩
    rw [hclear.replaceFrom_append] at hfilled
    obtain ⟨l', q', rest⟩ := w'
    obtain rfl : replaceFrom v 0 w.rest = rest := List.append_cancel_left hfilled
    exact .keep hnone (by rw [hcut]; exact hclear) (ih hsteps hw hgaps hsteps')
  | @fill last a b c d e t' ts ts' value hasked hvalue _ ih =>
    obtain ⟨w, y, place, front, hstep, hsteps, hplace, hmem, -, hcut, hy⟩ := exists_place hasked hsteps hx
    simp only [List.forall_mem_cons] at hgaps
    obtain ⟨hgap, -, -, -, -, hgaps⟩ := hgaps
    cases hsteps' with
    | @head _ w' _ _ _ hstep' hsteps' =>
    obtain ⟨g, doc, hscan⟩ := scan_replaceFrom hstep hgap
    obtain ⟨doc', hscan', -⟩ := hstep'.gap
    have hfront : replaceFrom v 0 (place ++ y.rest) = t'.text.toList ++ w'.rest := by
      rw [← hplace]
      exact (Gap.mk.inj (Except.ok.inj (hscan.symm.trans hscan'))).2.2
    have hkind : t'.kind = .string := Token.kind_of_stringValue? hvalue
    have hlexeme := hstep'.lexeme
    rw [← hfront, hkind] at hlexeme
    have hends : endsName y.rest = true := by
      by_contra hgoesOn
      -- the name of the placeholder would be read
      have hnone := here?_eq_none_of_goesOn hmem (Bool.eq_false_iff.mpr hgoesOn)
      obtain ⟨place, rfl, -⟩ := exists_cons_of_mem hmem
      rw [List.cons_append] at hnone hlexeme
      rw [replaceFrom_keep hnone] at hlexeme
      exact absurd (kind_of_lexeme hlexeme) (by decide)
    have hstands : StandsBefore v place value y.rest := ⟨hmem, hends⟩
    rw [hstands.replaceFrom_eq, Json.lexeme_quoted] at hlexeme
    obtain ⟨l', q', rest⟩ := w'
    obtain rfl : replaceFrom v 0 y.rest = rest := (Split.mk.inj (Prod.mk.inj (Except.ok.inj hlexeme)).2).2
    exact .fill hasked (by rw [hcut]; exact hends) (ih hsteps hy hgaps hsteps')

/-! ## Whole texts -/

/-- String literals and the words that are kept have no parts of their own. -/
theorem Substituted.flat (h : Substituted v last ts ts') (hflat : ∀ t ∈ ts, t.kind.isNested = false) :
    ∀ t ∈ ts', t.kind.isNested = false := by
  induction h with
  | nil => exact nofun
  | keep _ hword _ ih =>
    obtain ⟨hkind, hflat⟩ := List.forall_mem_cons.mp hflat
    exact List.forall_mem_cons.mpr ⟨by rw [(Token.word_eq_iff.mp hword).1, hkind], ih hflat⟩
  | @fill last a b c d e t' ts ts' value _ hvalue _ ih =>
    simp only [List.forall_mem_cons] at hflat
    obtain ⟨-, -, -, -, -, hflat⟩ := hflat
    have hkind : t'.kind = .string := Token.kind_of_stringValue? hvalue
    exact List.forall_mem_cons.mpr ⟨by rw [hkind]; rfl, ih hflat⟩

/-- What stands behind all tokens is left when they are read. -/
theorem behind_eq (h : Steps jsx (Place.first source.toList) ts z) : behind source ts = z.rest := by
  rcases List.eq_nil_or_concat ts with rfl | ⟨us, t, rfl⟩
  · cases h
    rfl
  · rw [List.concat_eq_append] at h ⊢
    obtain ⟨y, hus, hlast⟩ := h.exists_append
    obtain ⟨before, line, hy⟩ := hus.exists_at (at_interpreterLine source none)
    cases hlast with
    | head hstep hnil =>
    cases hnil
    obtain ⟨front, hcut, -⟩ := hstep.cut hy
    rw [behind, List.getLast?_concat, Option.elim_some, hcut]

/-- The first line stays the first one when placeholders are filled. -/
theorem lineRest_replaceFrom (s : List Char) :
    lineRest (replaceFrom v 0 s) = ⟨replaceFrom v 0 (lineRest s).text, replaceFrom v 0 (lineRest s).rest⟩ := by
  obtain ⟨line, rest, hline⟩ : ∃ line rest, lineRest s = ⟨line, rest⟩ := ⟨_, _, rfl⟩
  rw [hline]
  obtain ⟨rfl, hin, hout⟩ := takeWhile_eq_iff.mp hline
  have hfeed : '\n' ∉ line := fun hmem => by simpa using hin _ hmem
  have hfilled : ∀ c ∈ replaceFrom v 0 line, decide (c ≠ '\n') = true := by
    intro c hc
    refine decide_eq_true fun heq => feed_not_mem_replaceFrom (v := v) hfeed ?_
    rwa [← heq]
  cases rest with
  | nil =>
    rw [List.append_nil]
    exact takeWhile_eq_iff.mpr ⟨(List.append_nil _).symm, hfilled, nofun⟩
  | cons c rest =>
    obtain rfl : c = '\n' := by simpa using hout c rfl
    rw [setsApart_feed.replaceFrom_append, replaceFrom_cons (by decide)]
    exact takeWhile_eq_iff.mpr ⟨rfl, hfilled, hout⟩

/-- An interpreter line stays one when placeholders are filled. -/
theorem interpreterLine_replaceFrom (s : List Char) :
    (interpreterLine (replaceFrom v 0 s)).rest = replaceFrom v 0 (interpreterLine s).rest := by
  by_cases hmark : ['#', '!'] <+: s
  · obtain ⟨r, rfl⟩ := hmark
    have hfilled : replaceFrom v 0 (['#', '!'] ++ r) = '#' :: '!' :: replaceFrom v 0 r := by
      rw [List.cons_append, List.singleton_append, replaceFrom_cons (by decide), replaceFrom_cons (by decide)]
    rw [hfilled, List.cons_append, List.singleton_append, interpreterLine, interpreterLine, lineRest_mark, lineRest_mark,
      lineRest_replaceFrom]
  · have hfilled : ¬ ['#', '!'] <+: replaceFrom v 0 s := by
      rcases replaceFrom_eq_or (v := v) s with heq | ⟨w, u, x, rfl, heq⟩
      · rwa [heq]
      · rw [heq]
        match w with
        | [] => simp
        | [_] => simp
        | _ :: _ :: _ => simpa using hmark
    rw [interpreterLine_of_not_mark hmark, interpreterLine_of_not_mark hfilled]

/-- A text that is filled is read from where its source is. -/
theorem first_replace (v : PlaceholderValues) (source : String) : ∃ q, Place.first (replace v source).toList =
    ⟨none, q, replaceFrom v 0 (Place.first source.toList).rest⟩ := by
  refine ⟨Position.start.after (interpreterLine (replaceFrom v 0 source.toList)).text, ?_⟩
  rw [Place.first, replace, String.toList_ofList, interpreterLine_replaceFrom]
  rfl

section Filled

variable (h : tokenize source = .ok ts) (hflat : ∀ t ∈ ts, t.kind.isNested = false)
  (hcomments : LeavesComments v source ts)
include h hflat hcomments

/-- Where expressions are replaced as such, placeholders stand for them, and no elements are found. -/
theorem Substituted.matchesTokens_and (hsub : Substituted v none ts ts') (h' : tokenize (replace v source) = .ok ts') :
    MatchesTokens v source none ts ∧ ¬ FindsElements (replace v source) := by
  rw [tokenize, tokens_eq_run] at h h'
  obtain ⟨z, hsteps, -⟩ := run_eq_ok_iff_steps.mp h
  obtain ⟨z', hsteps', -⟩ := run_eq_ok_iff_steps.mp h'
  obtain ⟨q, hfirst⟩ := first_replace v source
  rw [hfirst] at hsteps'
  refine ⟨hsub.matchesTokens hsteps (at_interpreterLine source none) hcomments.1 hsteps', ?_⟩
  rintro ⟨hreads, hne⟩
  rw [hreads] at h'
  rw [h', run_flat h' (hsub.flat hflat)] at hne
  exact hne rfl

end Filled

/-- Only the host is known. -/
def knownHost : PlaceholderValues := ⟨some "r", none⟩

theorem eq_of_mem_knownHost {place : List Char} (h : (place, some value) ∈ named knownHost) : value = "r" := by
  rcases List.mem_pair.mp h with h | h
  · exact Option.some.inj (Prod.mk.inj h).2
  · cases (Prod.mk.inj h).2

/-- A text with a placeholder in a comment and with one that is an argument. -/
def calling : String := "// process.env.APPLET_RPC_HOST\nf(process.env.APPLET_RPC_HOST);"

/-- Its tokens. -/
def callingTokens : List Token :=
  [⟨.ident, "f", "// process.env.APPLET_RPC_HOST\n", ⟨31, 2, 1⟩, none⟩, ⟨.punct, "(", "", ⟨32, 2, 2⟩, none⟩,
    ⟨.ident, "process", "", ⟨33, 2, 3⟩, none⟩, ⟨.punct, ".", "", ⟨40, 2, 10⟩, none⟩,
    ⟨.ident, "env", "", ⟨41, 2, 11⟩, none⟩, ⟨.punct, ".", "", ⟨44, 2, 14⟩, none⟩,
    ⟨.ident, "APPLET_RPC_HOST", "", ⟨45, 2, 15⟩, none⟩, ⟨.punct, ")", "", ⟨60, 2, 30⟩, none⟩,
    ⟨.punct, ";", "", ⟨61, 2, 31⟩, none⟩]

/-- A text with a placeholder in a string literal. -/
def quoting : String := "f(\"process.env.APPLET_RPC_HOST\");"

/-- Its tokens. -/
def quotingTokens : List Token :=
  [⟨.ident, "f", "", ⟨0, 1, 1⟩, none⟩, ⟨.punct, "(", "", ⟨1, 1, 2⟩, none⟩,
    ⟨.string, "\"process.env.APPLET_RPC_HOST\"", "", ⟨2, 1, 3⟩, none⟩, ⟨.punct, ")", "", ⟨31, 1, 32⟩, none⟩,
    ⟨.punct, ";", "", ⟨32, 1, 33⟩, none⟩]

end Placeholder

end AppBundler
