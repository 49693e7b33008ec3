import AppBundler.Proofs.Source.Braces
import AppBundler.Proofs.Source.Comments
import AppBundler.Proofs.Source.Embedded
/-!
# Expressions inside elements and templates

An element and a template literal are each one token, so that what an expression inside them imports is not seen. But
not all that looks like an element is one. A text in which a tag stays open is read without elements, and an expression
between its braces is then read as it is on its own, with all that it imports.
-/

namespace AppBundler

open Lexeme Lexer

/-- A statement with an expression in an attribute of an element. -/
def inElement (e : String) : String := "const t = <div a=\x7b" ++ e ++ "\x7d />;"

/-- A statement with an expression in a template literal. -/
def inTemplate (e : String) : String := "const t = \x60$\x7b" ++ e ++ "\x7d\x60;"

/-! ## Ends of clauses -/

namespace Import

variable {t : Token} {ts us : List Token}

/-- No clause goes on in some tokens: if there are any, the first one is a closing brace. -/
def EndsClauses : List Token → Prop
  | [] => True
  | t :: us => t.isPunct "\x7d" = true ∧ clauseSource false us = none

theorem clauseSource_append (h : EndsClauses us) (inBraces : Bool) (ts : List Token) :
    clauseSource inBraces (ts ++ us) = clauseSource inBraces ts := by
  cases us with
  | nil => rw [List.append_nil]
  | cons t us =>
  obtain ⟨ht, hus⟩ := h
  obtain ⟨hkind, htext⟩ := Token.isPunct_iff.mp ht
  induction ts generalizing inBraces with
  | nil =>
    cases inBraces with
    | true => simpa [clauseSource, ht] using hus
    | false => simp [clauseSource, Token.isIdent, hkind, htext]
  | cons u ts ih =>
    have hhead : ((ts ++ t :: us).head?.filter fun s => u.isIdent "from" && s.kind = .string) =
        ts.head?.filter fun s => u.isIdent "from" && s.kind = .string := by
      cases ts with
      | nil => simp [hkind]
      | cons v ts => rfl
    simp only [List.cons_append, clauseSource, hhead, ih]

theorem afterImport_append (h : EndsClauses us) (ts : List Token) : afterImport (ts ++ us) = afterImport ts := by
  cases us with
  | nil => rw [List.append_nil]
  | cons t us =>
  obtain ⟨hkind, htext⟩ := Token.isPunct_iff.mp h.1
  have hclause := clauseSource_append h false
  cases ts with
  | nil =>
    have hnone : clauseSource false (t :: us) = none := hclause []
    simp [afterImport, Token.isPunct, hkind, htext, hnone]
  | cons u ts =>
    have hall : clauseSource false (u :: (ts ++ t :: us)) = clauseSource false (u :: ts) := hclause (u :: ts)
    unfold afterImport
    dsimp only [List.cons_append]
    rw [hall]
    -- the arguments of a call do not go on behind the closing brace
    rcases ts with - | ⟨v, - | ⟨w, ts⟩⟩
    · cases us <;> simp [hkind]
    · simp [Token.isPunct, hkind, htext]
    · rfl

theorem afterExport_append (h : EndsClauses us) (ts : List Token) : afterExport (ts ++ us) = afterExport ts := by
  cases us with
  | nil => rw [List.append_nil]
  | cons t us =>
  obtain ⟨hkind, htext⟩ := Token.isPunct_iff.mp h.1
  have hclause := clauseSource_append h false
  cases ts with
  | nil => simp [afterExport, Token.isPunct, Token.isIdent, hkind, htext]
  | cons u ts =>
    have hall : clauseSource false (u :: (ts ++ t :: us)) = clauseSource false (u :: ts) := hclause (u :: ts)
    rw [List.cons_append, afterExport, afterExport, hall]

/-- A token that neither begins an import nor comes before the name of a member. -/
def IsQuiet (t : Token) : Prop :=
  t.isIdent "import" = false ∧ t.isIdent "export" = false ∧ (t.isPunct "." || t.isPunct "?.") = false

instance : DecidablePred IsQuiet := fun _ => inferInstanceAs (Decidable (_ ∧ _))

theorem ofTokens_quiet (h : ∀ t ∈ ts, IsQuiet t) (us : List Token) : ofTokens false (ts ++ us) = ofTokens false us := by
  induction ts with
  | nil => rfl
  | cons t ts ih =>
    obtain ⟨⟨himport, hexport, hpoint⟩, hts⟩ := List.forall_mem_cons.mp h
    simp only [List.cons_append, ofTokens, himport, hexport, hpoint, Bool.false_eq_true, if_false, Option.toList_none,
      List.nil_append, ih hts]

/-- **Imports end where their clauses do**: what stands behind them adds none of its own. -/
theorem ofTokens_append (h : EndsClauses us) (hquiet : ∀ t ∈ us, IsQuiet t) (afterPoint : Bool) (ts : List Token) :
    ofTokens afterPoint (ts ++ us) = ofTokens afterPoint ts := by
  induction ts generalizing afterPoint with
  | nil =>
    cases us with
    | nil => rfl
    | cons t us =>
      obtain ⟨⟨himport, hexport, hpoint⟩, hus⟩ := List.forall_mem_cons.mp hquiet
      have hnone := ofTokens_quiet hus []
      rw [List.append_nil] at hnone
      simp [ofTokens, himport, hexport, hpoint, hnone]
  | cons t ts ih => simp only [List.cons_append, ofTokens, afterImport_append h, afterExport_append h, ih]

end Import

/-! ## Statements -/

namespace Lexer

variable {jsx : Bool} {l : Option Token} {q : Position} {r v : List Char} {ts : List Token}

/-- The tokens in front of an assigned value. -/
def assignment : List Token :=
  [⟨.ident, "const", "", ⟨0, 1, 1⟩, none⟩, ⟨.ident, "t", " ", ⟨6, 1, 7⟩, none⟩, ⟨.punct, "=", " ", ⟨8, 1, 9⟩, none⟩]

/-- The tokens in front of the braces of an attribute, when the angle bracket opens no element. -/
def attributeName : List Token :=
  assignment ++ [⟨.punct, "<", " ", ⟨10, 1, 11⟩, none⟩, ⟨.ident, "div", "", ⟨11, 1, 12⟩, none⟩,
    ⟨.ident, "a", " ", ⟨15, 1, 16⟩, none⟩, ⟨.punct, "=", "", ⟨16, 1, 17⟩, none⟩]

/-- The tokens behind the braces. -/
def attributeEnd : List Token :=
  [⟨.punct, "/", " ", ⟨2, 1, 3⟩, none⟩, ⟨.punct, ">", "", ⟨3, 1, 4⟩, none⟩, ⟨.punct, ";", "", ⟨4, 1, 5⟩, none⟩]

/-- Behind an expression the attribute and the statement end, unless a line comment takes the rest. -/
theorem steps_attributeEnd {g : List Char} {d : Option (List Char)} (hgap : Gap.scan g = .ok ⟨g, d, []⟩)
    (l : Option Token) (q : Position) :
    ∃ us, (us = [] ∨ us = closeBrace :: attributeEnd) ∧ ∃ us' z, words us' = words us ∧
      Steps false ⟨l, q, g ++ '\x7d' :: " />;".toList⟩ us' z ∧ ∃ g d, Gap.scan z.rest = .ok ⟨g, d, []⟩ := by
  have hread : from? false 5 ⟨some closeBrace, ⟨1, 1, 2⟩, " />;".toList⟩ = .ok attributeEnd := by decide +kernel
  rcases Gap.isGap_or_swallows (Gap.scan_isGap g hgap).2 with hclosed | hopen
  · obtain ⟨us, z, hsteps, hsame, hend⟩ := steps_behindClosing (Gap.goesBefore_of_isGap hclosed) hread l q
    have hwords : words (braceBehind '\x7d' g d q :: us) = words (closeBrace :: attributeEnd) :=
      congrArg₂ List.cons rfl (words_of_unplaced hsame)
    exact ⟨_, Or.inr rfl, _, z, hwords, hsteps, hend⟩
  · obtain ⟨d, hscan⟩ := hopen ('\x7d' :: " />;".toList) (by decide)
    exact ⟨[], Or.inl rfl, [], _, rfl, .refl _, _, d, hscan⟩

/-- **Without elements an expression in an attribute is read** as it is on its own. -/
theorem run_inElement {e : String} (h : run false e.toList = .ok ts) (hmark : ¬ "#!".toList <+: e.toList) :
    ∃ all us, run false (inElement e).toList = .ok all ∧ (us = [] ∨ us = closeBrace :: attributeEnd) ∧
      words all = words (attributeName ++ openBrace "" :: (ts ++ us)) := by
  have hname : run false "const t = <div a=".toList = .ok attributeName := by decide +kernel
  obtain ⟨p, hfront⟩ := steps_of_run hname (by decide) (by decide) (endsLexeme_brace (Or.inl rfl))
    (e.toList ++ '\x7d' :: " />;".toList)
  -- the expression is read up to the gap at its end
  obtain ⟨⟨last, p', g⟩, hsteps, g', d, hend⟩ := run_eq_ok_iff_steps.mp h
  obtain rfl : g = g' := by simpa using (Gap.scan_isGap _ hend).1
  rw [Place.first_of_not_mark hmark, ← List.append_nil e.toList, ← List.append_nil g] at hsteps
  have hinside := hsteps.before (endsLexeme_brace (Or.inr rfl)) (v := " />;".toList)
  obtain ⟨ts', ⟨l, q, rest⟩, hopened, hrest, hts⟩ := hfront.behindOpening Gap.GoesBefore.nil hinside
  obtain rfl : rest = g ++ '\x7d' :: " />;".toList := hrest
  obtain ⟨us, hus, us', z, hwords, hbehind, hend⟩ := steps_attributeEnd hend l q
  have hstart : "const t = <div a=\x7b".toList = "const t = <div a=".toList ++ ['\x7b'] := by decide
  have hstop : "\x7d />;".toList = '\x7d' :: " />;".toList := by decide
  have htext : (inElement e).toList = "const t = <div a=".toList ++ '\x7b' :: (e.toList ++ '\x7d' :: " />;".toList) := by
    refine (toList_between _ e _).trans ?_
    rw [hstart, hstop, List.append_assoc, List.singleton_append]
  have hrun : run false (inElement e).toList = .ok (attributeName ++ ts' ++ us') := by
    refine run_eq_ok_iff_steps.mpr ⟨z, ?_, hend⟩
    rw [htext, Place.first_of_not_mark (by simp)]
    exact hopened.append hbehind
  refine ⟨_, us, hrun, hus, ?_⟩
  rw [words_append, words_append, words_of_unplaced hts, hwords, ← List.cons_append, words_append, words_append,
    List.append_assoc]

/-- A value that is one token is assigned. -/
theorem run_assigned {kind : TokenKind} {c : Char} {text s : List Char} (hs : s = "const t =".toList ++ ' ' :: c :: (text ++ [';']))
    (hbegin : isBlank c = false ∧ c ≠ '/') (h : lexeme jsx true (c :: (text ++ [';'])) = .ok (kind, ⟨c :: text, [';']⟩)) :
    ∃ t u, run jsx s = .ok (assignment ++ [t, u]) ∧ t.kind = kind ∧ u.word = (.punct, ";") := by
  have hassignment : run jsx "const t =".toList = .ok assignment := by cases jsx <;> decide +kernel
  obtain ⟨p, hfront⟩ := steps_of_run hassignment (by decide) (by decide) endsLexeme_space (c :: (text ++ [';']))
  let t : Token := ⟨kind, String.ofList (c :: text), " ", p.after [' '], none⟩
  let u : Token := ⟨.punct, ";", "", t.start.after (c :: text), none⟩
  refine ⟨t, u, run_eq_ok_iff_steps.mpr ⟨⟨some u, u.start.after [';'], []⟩, ?_, [], none, rfl⟩, rfl, rfl⟩
  rw [hs, Place.first_of_not_mark (by simp)]
  refine Steps.append hfront (.head (y := ⟨some t, t.start.after (c :: text), [';']⟩) ?_ (.head ?_ (.refl _)))
  · have hstop : Gap.scan (c :: (text ++ [';'])) = .ok ⟨[], none, c :: (text ++ [';'])⟩ :=
      Gap.scan_eq_nil_iff.mpr ⟨hbegin.1, fun hslash => absurd hslash hbegin.2⟩
    refine ⟨⟨none, ?_, rfl⟩, by simp [t], by simp, ?_, rfl, by simp [t]⟩
    · rw [Gap.scan_blank (by decide), hstop]
      simp [t, Gap.precede]
    · simpa [t, assignment, Token.operandMayFollow] using h
  · refine ⟨⟨none, ?_, rfl⟩, rfl, by simp [u], ?_, rfl, by simp [u]⟩
    · simpa [u] using (Gap.scan_eq_nil_iff (c := ';') (s := [])).mpr ⟨by decide, fun hslash => absurd hslash (by decide)⟩
    · simpa [u] using lexeme_semicolon jsx _ []

end Lexer

/-! ## Embedded expressions -/

namespace Lexeme

variable {jsx : Bool} {e : List Char}

/-- A text is passed over as the expression between two braces. -/
def Embeds (jsx : Bool) (e : List Char) : Prop :=
  embeddedRest jsx (2 * e.length + 2) 0 '\x7b' (e ++ ['\x7d']) = .ok ⟨e ++ ['\x7d'], []⟩

instance : DecidablePred (Embeds jsx) := fun _ => inferInstanceAs (Decidable (_ = _))

/-- An expression is passed over whatever follows its brace. -/
theorem Embeds.before (h : Embeds jsx e) {n : Nat} (hn : 2 * e.length + 2 ≤ n) (r : List Char) :
    embeddedRest jsx n 0 '\x7b' (e ++ '\x7d' :: r) = .ok ⟨e ++ ['\x7d'], r⟩ := by
  simpa using ((levelReadsAs jsx hn).embedded _ _ h).2.2 r

/-- What is passed over up to the last brace is an embedded expression. -/
theorem Skips.embeds (h : Skips 0 (e ++ ['\x7d']) []) : Embeds false e := by
  obtain ⟨n, p, hp, hread⟩ := h.embeddedRest
  obtain rfl : e ++ ['\x7d'] = p := by simpa using hp
  exact (levelSuffices false n).embedded 0 '\x7b' (by simp; omega) (hread '\x7b') (Nat.le_refl _)

end Lexeme

namespace Lexer

/-- An attribute goes up to the brace behind its expression. -/
theorem attributesRest_expression {n : Nat} {p r v : List Char} (h : embeddedRest true n 0 '\x7b' v = .ok ⟨p, r⟩) :
    attributesRest true (n + 1) ('a' :: '=' :: '\x7b' :: v) =
      (attributesRest true n r).precede ('a' :: '=' :: '\x7b' :: p) := by
  have hidentifier : (isIdentStart 'a' && isIdentContinue 'a') = true := by decide +kernel
  have hname : takeWhile (fun c => isIdentContinue c || decide (c = '-') || decide (c = ':')) ('=' :: '\x7b' :: v) =
      ⟨[], '=' :: '\x7b' :: v⟩ :=
    takeWhile_eq_iff.mpr ⟨rfl, nofun, fun d hd => by cases hd; decide +kernel⟩
  have hvalue : attributeValue true n ('=' :: '\x7b' :: v) = .ok ⟨'=' :: '\x7b' :: p, r⟩ := by
    rw [attributeValue, if_neg (by decide), if_pos rfl, h]
    rfl
  rw [attributesRest, if_neg (by decide), if_neg (by simp), if_neg (by decide), if_neg (by decide), if_pos hidentifier,
    hname]
  change (Scan.andThen (attributeValue true n ('=' :: '\x7b' :: v)) (attributesRest true n)).precede ['a'] = _
  rw [hvalue, Scan.andThen_ok]
  cases attributesRest true n r <;> simp [Scan.precede]

/-- **An element with an embedded expression is one token.** -/
theorem lexeme_inElement {e : List Char} (h : Embeds true e) (r : List Char) :
    lexeme true true ('<' :: ("div a=\x7b".toList ++ (e ++ '\x7d' :: (" />".toList ++ r)))) =
      .ok (.jsx, ⟨'<' :: ("div a=\x7b".toList ++ (e ++ '\x7d' :: " />".toList)), r⟩) := by
  have hend (n : Nat) : attributesRest true (n + 2) (" />".toList ++ r) = .ok ⟨" />".toList, r⟩ := by
    simp [attributesRest, isBlank]
  have helement {n : Nat} (hn : 2 * e.length ≤ n) :
      elementRest true (n + 5) ("div a=\x7b".toList ++ (e ++ '\x7d' :: (" />".toList ++ r))) =
        .ok ⟨"div a=\x7b".toList ++ (e ++ '\x7d' :: " />".toList), r⟩ := by
    have hattribute := attributesRest_expression (h.before (n := n + 2) (by omega) (" />".toList ++ r))
    rw [hend] at hattribute
    have hname : takeWhile (fun c => isIdentContinue c || decide (c = '.') || decide (c = ':') || decide (c = '-'))
        ("div a=\x7b".toList ++ (e ++ '\x7d' :: (" />".toList ++ r))) =
          ⟨"div".toList, ' ' :: 'a' :: '=' :: '\x7b' :: (e ++ '\x7d' :: (" />".toList ++ r))⟩ :=
      takeWhile_eq_iff.mpr ⟨rfl, List.all_eq_true.mp (by decide +kernel), fun d hd => by cases hd; decide +kernel⟩
    unfold elementRest
    split
    case h_1 s heq => simp at heq
    case h_2 =>
      dsimp only
      rw [hname]
      dsimp only
      rw [if_neg (by simp), Scan.andThen_ok, attributesRest, if_pos (by decide), hattribute]
      simp [Scan.precede]
  -- the fuel of the whole text suffices for the expression
  have hfuel : 2 * ('<' :: ("div a=\x7b".toList ++ (e ++ '\x7d' :: (" />".toList ++ r)))).length + 2 =
      2 * e.length + (2 * r.length + 21) + 5 := by
    simp
    omega
  have hbegin : isIdentStart 'd' = true := by decide +kernel
  unfold lexeme
  dsimp only
  rw [if_neg (by decide), if_neg (by decide), if_neg (by simp), if_neg (by decide +kernel), if_neg (by decide),
    if_pos (by simp [elementFollows, hbegin]), hfuel, helement (by omega)]
  rfl

/-- A template literal with an embedded expression is one token. -/
theorem lexeme_inTemplate {jsx : Bool} {e : List Char} (h : Embeds jsx e) (r : List Char) :
    lexeme jsx true ('\x60' :: '$' :: '\x7b' :: (e ++ '\x7d' :: '\x60' :: r)) =
      .ok (.template, ⟨'\x60' :: '$' :: '\x7b' :: (e ++ ['\x7d', '\x60']), r⟩) := by
  have hexpression := h.before (Nat.le_refl _) ('\x60' :: r)
  simpa using lexeme_template true (p := e ++ ['\x7d']) (by simp) hexpression

/-- **Balanced tokens are an embedded expression** when their regular expressions are passed over and no line comment
takes the brace behind them. -/
theorem embeds_of_tokens {e : String} {ts us : List Token} (h : run false e.toList = .ok ts)
    (hmark : ¬ "#!".toList <+: e.toList) (hbraces : Token.closesBraces 0 ts = true) (hpass : ∀ t ∈ ts, t.IsPassable e)
    (hbrace : run false (e.toList ++ ['\x7d']) = .ok us) (hlength : us.length ≠ ts.length) : Embeds false e.toList := by
  obtain ⟨⟨l, q, g⟩, hsteps, g', d, hend⟩ := run_eq_ok_iff_steps.mp h
  obtain ⟨hg, hgap⟩ := Gap.scan_isGap _ hend
  obtain rfl : g = g' := by simpa using hg
  rw [Place.first_of_not_mark hmark] at hsteps
  have hfirst : (Place.mk none .start e.toList).At e [] [] := ⟨rfl, rfl, Or.inl rfl⟩
  rcases Gap.isGap_or_swallows hgap with hclosed | hopen
  · exact (hsteps.skips_append hfirst (.gap hclosed nofun (.close [])) rfl hbraces hpass).embeds
  · -- a line comment would leave no token for the brace
    obtain ⟨d', hscan⟩ := hopen ['\x7d'] (by decide)
    rw [← List.append_nil e.toList, ← List.append_nil g] at hsteps
    have hall := hsteps.before (endsLexeme_brace (Or.inr rfl)) (v := [])
    rw [← Place.first_of_not_mark (not_mark_append hmark (Or.inr rfl) [])] at hall
    have hrun := run_eq_ok_iff_steps.mpr ⟨_, hall, _, d', hscan⟩
    rw [hbrace] at hrun
    exact absurd (congrArg List.length (Except.ok.inj hrun)) hlength

end Lexer

namespace Import

/-- A value that is one token, and no word, imports nothing. -/
theorem scan_assigned {source : String} {jsx : Bool} {kind : TokenKind} {c : Char} {text : List Char}
    (hsource : source.toList = "const t =".toList ++ ' ' :: c :: (text ++ [';'])) (hmarks : mayHaveElements source.toList = jsx)
    (hbegin : isBlank c = false ∧ c ≠ '/') (hkind : kind ≠ .ident ∧ kind ≠ .punct)
    (h : lexeme jsx true (c :: (text ++ [';'])) = .ok (kind, ⟨c :: text, [';']⟩)) : scan source = .ok [] := by
  obtain ⟨t, u, hrun, ht, hu⟩ := run_assigned hsource hbegin h
  have hmode : readsElements source.toList = jsx := by
    rw [readsElements, hmarks]
    cases jsx with
    | false => rfl
    | true => rw [hrun]; rfl
  have hquiet : ∀ v ∈ assignment ++ [t, u], IsQuiet v := by
    obtain ⟨hukind, hutext⟩ := Prod.mk.inj hu
    have htquiet : IsQuiet t := by simp [IsQuiet, Token.isIdent, Token.isPunct, ht, hkind]
    have huquiet : IsQuiet u := by simp [IsQuiet, Token.isIdent, Token.isPunct, hukind, hutext]
    exact List.forall_mem_append.mpr ⟨by decide, by simp [htquiet, huquiet]⟩
  have hnone := ofTokens_quiet hquiet []
  rw [List.append_nil] at hnone
  rw [scan, tokenize, tokens_eq_run, hmode, hrun]
  exact congrArg Except.ok hnone

variable {e : String} {ts : List Token}

/-- What an element with an embedded expression imports is not seen. -/
theorem scan_inElement_of_embeds (h : Embeds true e.toList) : scan (inElement e) = .ok [] := by
  have hstart : "const t = <div a=\x7b".toList = "const t =".toList ++ ' ' :: '<' :: "div a=\x7b".toList := by decide
  have hstop : "\x7d />;".toList = '\x7d' :: (" />".toList ++ [';']) := by decide
  have hsource : (inElement e).toList = "const t =".toList ++ ' ' :: '<' ::
      ("div a=\x7b".toList ++ (e.toList ++ '\x7d' :: " />".toList) ++ [';']) := by
    refine (toList_between _ e _).trans ?_
    rw [hstart, hstop]
    simp only [List.append_assoc, List.cons_append]
  have hmarks : mayHaveElements (inElement e).toList = true := by
    refine mayHaveElements_eq_true_iff.mpr (Or.inr ?_)
    rw [hsource]
    exact ⟨"const t = <div a=\x7b".toList ++ (e.toList ++ ['\x7d', ' ']), [';'], by simp⟩
  have hlexeme : lexeme true true ('<' :: ("div a=\x7b".toList ++ (e.toList ++ '\x7d' :: " />".toList) ++ [';'])) =
      .ok (.jsx, ⟨'<' :: ("div a=\x7b".toList ++ (e.toList ++ '\x7d' :: " />".toList)), [';']⟩) := by
    simpa using lexeme_inElement h [';']
  exact scan_assigned hsource hmarks (by decide) (by decide) hlexeme

/-- What a template literal with an embedded expression imports is not seen. -/
theorem scan_inTemplate_of_embeds (h : Embeds (mayHaveElements e.toList) e.toList) : scan (inTemplate e) = .ok [] := by
  have hstart : "const t = \x60$\x7b".toList = "const t =".toList ++ ' ' :: '\x60' :: '$' :: ['\x7b'] := by decide
  have hstop : "\x7d\x60;".toList = '\x7d' :: '\x60' :: [';'] := by decide
  have hsource : (inTemplate e).toList = "const t =".toList ++ ' ' :: '\x60' ::
      ('$' :: '\x7b' :: (e.toList ++ ['\x7d', '\x60']) ++ [';']) := by
    refine (toList_between _ e _).trans ?_
    rw [hstart, hstop]
    simp only [List.append_assoc, List.cons_append, List.nil_append]
  have hmarks : mayHaveElements (inTemplate e).toList = mayHaveElements e.toList := by
    have hshape : (inTemplate e).toList = "const t = \x60$".toList ++ '\x7b' :: (e.toList ++ '\x7d' :: ['\x60', ';']) := by
      rw [hsource]
      simp
    have hfront : mayHaveElements "const t = \x60$".toList = false := by decide
    have hbehind : mayHaveElements ['\x60', ';'] = false := by decide
    rw [hshape, mayHaveElements_between (by decide), mayHaveElements_between (by decide), hfront, hbehind, Bool.false_or,
      Bool.or_false]
  have hlexeme : lexeme (mayHaveElements e.toList) true
      ('\x60' :: ('$' :: '\x7b' :: (e.toList ++ ['\x7d', '\x60']) ++ [';'])) =
        .ok (.template, ⟨'\x60' :: '$' :: '\x7b' :: (e.toList ++ ['\x7d', '\x60']), [';']⟩) := by
    simpa using lexeme_inTemplate h [';']
  exact scan_assigned hsource hmarks (by decide) (by decide) hlexeme

/-- Where no elements are read, an attribute imports what its expression does. -/
theorem scan_inElement_of_plain (hmark : ¬ "#!".toList <+: e.toList) (htokens : tokenize e = .ok ts)
    (hplain : readsElements e.toList = false) (hstatement : readsElements (inElement e).toList = false) :
    ∃ inside, scan (inElement e) = .ok inside ∧ inside.map word = (ofTokens false ts).map word := by
  rw [tokenize, tokens_eq_run, hplain] at htokens
  obtain ⟨all, us, hrun, hus, hwords⟩ := run_inElement htokens hmark
  have hall : tokenize (inElement e) = .ok all := by rw [tokenize, tokens_eq_run, hstatement, hrun]
  refine ⟨ofTokens false all, by rw [scan, hall]; rfl, ?_⟩
  have hends : EndsClauses us ∧ ∀ t ∈ us, IsQuiet t := by
    rcases hus with rfl | rfl
    · exact ⟨trivial, by simp⟩
    · exact ⟨⟨rfl, rfl⟩, by decide⟩
  have hquiet : ∀ t ∈ attributeName ++ [openBrace ""], IsQuiet t := by decide
  have hreads : ofTokens false (attributeName ++ openBrace "" :: (ts ++ us)) = ofTokens false ts := by
    rw [List.append_cons, ofTokens_quiet hquiet, ofTokens_append hends.1 hends.2]
  rw [← hreads]
  exact (ofTokens_words (nodup_of_starts (tokenize_covers hall).1.starts) hwords.symm).symm

end Import

/-- An expression whose angle brackets would open an element, but are no tag. -/
def genericImport : String := "<T>(x: T) => (\x7b x, y: import(\"./y\") \x7d)"

/-- A call that imports. -/
def importCall : String := "import(\"./x\")"

/-- The tokens of the call. -/
def importCallTokens : List Token :=
  [⟨.ident, "import", "", ⟨0, 1, 1⟩, none⟩, ⟨.punct, "(", "", ⟨6, 1, 7⟩, none⟩, ⟨.string, "\"./x\"", "", ⟨7, 1, 8⟩, none⟩,
    ⟨.punct, ")", "", ⟨12, 1, 13⟩, none⟩]

end AppBundler
