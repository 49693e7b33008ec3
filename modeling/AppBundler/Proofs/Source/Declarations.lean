import AppBundler.Proofs.Source.Tree.Spelling
import AppBundler.Proofs.Source.Weaving
/-!
# Texts of import and export declarations

The tokens of a text are all looked at as beginnings of imports, and the words of a clause are walked over without
telling names from keywords. For texts that consist of declarations this is exact: a declaration has the import that
it was written for, whatever names it binds, and no word of it is taken for the beginning of another one.
-/

namespace AppBundler.Import

open Lexeme Lexer Text

/-! ## Declarations -/

/-- A name that may be bound: any but the two words that begin a declaration. -/
structure BoundName where
  text : String
  isName : isName text.toList = true
  ne_import : text ≠ "import"
  ne_export : text ≠ "export"

/-- A string literal as it is written: a quote, and what is read up to the other one. -/
structure StringLiteral where
  quote : Char
  isQuote : IsQuote quote
  rest : List Char
  reads : stringRest quote rest = .ok ⟨rest, []⟩

/-- A text between quotes that it has no need to escape. -/
structure QuotedSource where
  quote : Char
  isQuote : IsQuote quote
  text : String
  fits : FitsBetween quote text.toList

/-- The literal of a source. -/
def QuotedSource.literal (s : QuotedSource) : StringLiteral :=
  ⟨s.quote, s.isQuote, s.text.toList ++ [s.quote], stringRest_fits s.isQuote s.fits []⟩

/-- A name that is imported or exported, with its alias. -/
structure ListedName where
  name : BoundName
  alias? : Option BoundName

/-- What is imported from a module. -/
inductive Clause where
  /-- `a` -/
  | default (name : BoundName)
  /-- `* as a` -/
  | namespaced (name : BoundName)
  /-- `{ a, b as c }` -/
  | named (names : List ListedName)
  /-- `a, * as b` -/
  | defaultAndNamespace (name all : BoundName)
  /-- `a, { b, c as d }` -/
  | defaultAndNamed (name : BoundName) (names : List ListedName)

/-- A declaration that may name a module. -/
inductive Declaration where
  /-- `import "s";` -/
  | sideEffect (source : QuotedSource)
  /-- `import a from "s";`, `import type { a } from "s";` -/
  | imported (type : Bool) (clause : Clause) (source : QuotedSource)
  /-- `export { a } from "s";`, `export type { a } from "s";` -/
  | exported (type : Bool) (names : List ListedName) (source : QuotedSource)
  /-- `export * from "s";`, `export * as a from "s";` -/
  | exportedAll (as? : Option BoundName) (source : QuotedSource)
  /-- `import("s");` -/
  | called (source : QuotedSource)
  /-- `export { a };`, `export type { a };` -/
  | listed (type : Bool) (names : List ListedName)
  /-- `export const a = "s";` -/
  | constant (name : BoundName) (literal : StringLiteral)

/-! ## How they are written -/

/-- A name or a keyword behind a blank. -/
def ident (text : String) : Word := ⟨true, .ident, text⟩

/-- A punctuator with a blank before it or with none. -/
def sign (spaced : Bool) (text : String) : Word := ⟨spaced, .punct, text⟩

/-- A string literal with a blank before it or with none. -/
def StringLiteral.word (spaced : Bool) (l : StringLiteral) : Word := ⟨spaced, .string, String.ofList (l.quote :: l.rest)⟩

/-- An alias behind `as`. -/
def aliasWords : Option BoundName → List Word
  | none => []
  | some name => [ident "as", ident name.text]

/-- Names with commas between them. -/
def listWords : List ListedName → List Word
  | [] => []
  | [n] => ident n.name.text :: aliasWords n.alias?
  | n :: r => ident n.name.text :: (aliasWords n.alias? ++ sign false "," :: listWords r)

/-- Names in braces. -/
def bracedWords (names : List ListedName) : List Word := sign true "\x7b" :: (listWords names ++ [sign true "\x7d"])

/-- The words of a clause. -/
def Clause.words : Clause → List Word
  | .default name => [ident name.text]
  | .namespaced name => sign true "*" :: aliasWords (some name)
  | .named names => bracedWords names
  | .defaultAndNamespace name all => ident name.text :: sign false "," :: sign true "*" :: aliasWords (some all)
  | .defaultAndNamed name names => ident name.text :: sign false "," :: bracedWords names

/-- The modifier of what is only a type. -/
def typeWords (type : Bool) : List Word := if type then [ident "type"] else []

namespace Declaration

/-- The module that a declaration names, and how. -/
def source? : Declaration → Option (QuotedSource × ImportKind)
  | .sideEffect source | .imported _ _ source => some (source, .static)
  | .exported _ _ source | .exportedAll _ source => some (source, .reExport)
  | .called source => some (source, .dynamic)
  | .listed .. | .constant .. => none

/-- The first word of a declaration. -/
def keyword : Declaration → Word
  | .sideEffect _ | .imported .. | .called _ => ident "import"
  | _ => ident "export"

/-- The words of a declaration between the first one and its source. -/
def clauseWords : Declaration → List Word
  | .sideEffect _ => []
  | .imported type clause _ => typeWords type ++ clause.words ++ [ident "from"]
  | .exported type names _ => typeWords type ++ bracedWords names ++ [ident "from"]
  | .exportedAll as? _ => sign true "*" :: (aliasWords as? ++ [ident "from"])
  | .called _ => [sign false "("]
  | .listed type names => typeWords type ++ bracedWords names
  | .constant name literal => [ident "const", ident name.text, sign true "=", literal.word true]

/-- The source of a declaration with what follows it. -/
def sourceWords (d : Declaration) : List Word :=
  match d.source? with
  | none => [sign false ";"]
  | some (source, .dynamic) => [source.literal.word false, sign false ")", sign false ";"]
  | some (source, _) => [source.literal.word true, sign false ";"]

/-- The words of a declaration. -/
def words (d : Declaration) : List Word := d.keyword :: (d.clauseWords ++ d.sourceWords)

end Declaration

/-- The text of declarations, each behind a blank. -/
def text (ds : List Declaration) : List Char := Word.spell (ds.flatMap Declaration.words)

/-! ## What they import -/

namespace Declaration

/-- The import of a declaration whose text begins at an offset. It begins behind the quote of the source. -/
def importAt (offset : Nat) (d : Declaration) : Option Import :=
  d.source?.map fun (source, kind) =>
    let quote := offset + byteLength (Word.spell (d.keyword :: d.clauseWords)) + if kind = .dynamic then 0 else 1
    ⟨source.text, quote + 1, quote + 1 + source.text.utf8ByteSize, kind⟩

/-- The imports of declarations one after another. -/
def importsAt (offset : Nat) : List Declaration → List Import
  | [] => []
  | d :: ds => (d.importAt offset).toList ++ importsAt (offset + byteLength (Word.spell d.words)) ds

end Declaration

/-- An import covers its specifier in a text, between two quotes. -/
def Selects (source : List Char) (i : Import) : Prop :=
  ∃ before q after, IsQuote q ∧ source = before ++ q :: (i.specifier.toList ++ q :: after) ∧
    i.start = byteLength before + 1 ∧ i.stop = i.start + i.specifier.utf8ByteSize

/-! ## Words that stand apart

Every word of a declaration begins with a character that no name, literal or sign before it goes on with, so each
word is read up to the next one. -/

/-- The first characters of the words of declarations, with what stands before them. -/
def separators : List Char := [' ', '(', ')', ',', ';', '"', '\'']

/-- A text that a word before it does not go on with. -/
def StandsApart (r : List Char) : Prop := ∀ c ∈ r.head?, c ∈ separators

/-- A word that stands apart and is read before whatever stands apart behind it. -/
structure Apart (w : Word) : Prop where
  apart : ∃ c s, w.chars = c :: s ∧ c ∈ separators
  begins : ∃ c s, w.text.toList = c :: s ∧ isBlank c = false ∧ c ≠ '/'
  reads : ∀ jsx operand r, StandsApart r →
    lexeme jsx operand (w.text.toList ++ r) = .ok (w.kind, ⟨w.text.toList, r⟩)

variable {w : Word} {ws : List Word} {spaced : Bool}

theorem readable_of_apart (h : ∀ w ∈ ws, Apart w) (operand : Bool) : Word.Readable operand ws [] := by
  induction ws generalizing operand with
  | nil => exact .nil _ _
  | cons w ws ih =>
    obtain ⟨hw, hws⟩ := List.forall_mem_cons.mp h
    obtain ⟨c, s, htext, hbegin⟩ := hw.begins
    refine .cons htext hbegin (fun jsx => hw.reads jsx operand _ ?_) (ih hws _)
    cases ws with
    | nil => simp [StandsApart, Word.spell]
    | cons v ws =>
      obtain ⟨d, t, hchars, hd⟩ := (hws v List.mem_cons_self).apart
      rintro e he
      rw [Word.spell_cons, hchars] at he
      cases he
      exact hd

theorem StandsApart.stops {r : List Char} (h : StandsApart r) : Stops r := by
  have hall : separators.all Lexeme.stops.contains = true := by decide
  intro c hc
  exact List.contains_iff_mem.mp (List.all_eq_true.mp hall c (h c hc))

theorem apart_of_spaced {kind : TokenKind} {text : String} :
    ∃ c s, (⟨true, kind, text⟩ : Word).chars = c :: s ∧ c ∈ separators :=
  ⟨' ', text.toList, rfl, by decide⟩

theorem apart_ident {text : String} (h : Lexeme.isName text.toList = true) : Apart (ident text) where
  apart := apart_of_spaced
  begins := by
    obtain ⟨c, s, hs, hc⟩ := exists_cons_of_isName h
    exact ⟨c, s, hs, isBlank_of_isIdentStart hc, ne_of_isIdentStart hc (by decide)⟩
  reads _ _ _ hr := lexeme_name h hr.stops.isIdentContinue

/-- The characters of the signs of declarations. -/
def signChars : List Char := ['{', '}', '*', '=', ',', ';', '(', ')']

theorem StandsApart.standsAlone {r : List Char} (h : StandsApart r) {c : Char} (hc : c ∈ signChars) :
    standsAlone c r.head? = true := by
  have hall : (signChars.all fun c => (none :: separators.map some).all fun d => Lexeme.standsAlone c d) = true := by
    decide
  have hd : r.head? ∈ none :: separators.map some := by
    cases hr : r.head? with
    | none => exact List.mem_cons_self
    | some d => exact List.mem_cons_of_mem _ (List.mem_map_of_mem (h d hr))
  exact List.all_eq_true.mp (List.all_eq_true.mp hall c hc) _ hd

theorem lexeme_star {jsx operand : Bool} {r : List Char} (hr : StandsApart r) :
    lexeme jsx operand ('*' :: r) = .ok (.punct, ⟨['*'], r⟩) := by
  rw [lexeme]
  dsimp only
  rw [if_neg (by decide), if_neg (by decide), if_neg (by simp), if_neg (by decide +kernel), if_neg (by simp),
    if_neg (by simp), punctuator_of_standsAlone (hr.standsAlone (by decide))]

theorem lexeme_sign {jsx operand : Bool} {c : Char} {r : List Char} (hc : c ∈ signChars) (hr : StandsApart r) :
    lexeme jsx operand (c :: r) = .ok (.punct, ⟨[c], r⟩) := by
  have hmarks : ∀ c ∈ signChars, c = '*' ∨ c ∈ marks ∧ c ≠ '.' ∧ c ≠ '<' := by simp [signChars, marks]
  rcases hmarks c hc with rfl | ⟨hmark, hdot, hangle⟩
  · exact lexeme_star hr
  · exact lexeme_mark hmark (hr.standsAlone hc) (fun h => absurd h hdot) fun h => absurd h hangle

/-- A sign is read alone, and needs a blank before it when it is not a separator. -/
theorem apart_sign {c : Char} {text : String} (htext : text.toList = [c]) (hc : c ∈ signChars)
    (hspaced : spaced = true ∨ c ∈ separators) : Apart (sign spaced text) where
  apart := by
    cases spaced with
    | true => exact apart_of_spaced
    | false => exact ⟨c, [], htext, hspaced.resolve_left (by simp)⟩
  begins := by
    have hplain : ∀ c ∈ signChars, isBlank c = false ∧ c ≠ '/' := by simp [signChars, isBlank]
    exact ⟨c, [], htext, hplain c hc⟩
  reads jsx operand r hr := by
    simp only [sign, htext]
    exact lexeme_sign hc hr

theorem apart_literal (l : StringLiteral) : Apart (l.word spaced) where
  apart := by
    cases spaced with
    | true => exact apart_of_spaced
    | false =>
      refine ⟨l.quote, l.rest, String.toList_ofList, ?_⟩
      rcases l.isQuote with h | h <;> simp [h, separators]
  begins := by
    refine ⟨l.quote, l.rest, String.toList_ofList, ?_⟩
    rcases l.isQuote with h | h <;> rw [h] <;> decide
  reads jsx operand r _ := by
    have hquote : (decide (l.quote = '"') || decide (l.quote = '\'')) = true := by
      rcases l.isQuote with h | h <;> rw [h] <;> rfl
    have hread : stringRest l.quote (l.rest ++ r) = .ok ⟨l.rest, r⟩ :=
      (stringRest_readsAs l.isQuote.ne_backslash l.reads).2.2 r
    rw [StringLiteral.word, String.toList_ofList, List.cons_append, lexeme]
    dsimp only
    rw [if_pos hquote, hread]
    rfl

/-! ## Words that begin nothing -/

/-- A word behind the first one of a declaration: it stands apart, and it neither begins an import nor comes before
the name of a member. -/
structure Inner (w : Word) : Prop extends Apart w where
  name : w.kind = .ident → w.text ≠ "import" ∧ w.text ≠ "export"
  sign : w.kind = .punct → w.text ≠ "." ∧ w.text ≠ "?."

theorem BoundName.inner (n : BoundName) : Inner (ident n.text) where
  toApart := apart_ident n.isName
  name _ := ⟨n.ne_import, n.ne_export⟩
  sign h := nomatch h

/-- The keywords that are no names of imports. -/
theorem inner_keyword : ∀ text ∈ ["as", "from", "type", "const"], Inner (ident text) := by
  have hname : ∀ text ∈ ["as", "from", "type", "const"],
      isName text.toList = true ∧ text ≠ "import" ∧ text ≠ "export" := by decide +kernel
  intro text htext
  obtain ⟨hname, himport, hexport⟩ := hname text htext
  exact ⟨apart_ident hname, fun _ => ⟨himport, hexport⟩, fun h => nomatch h⟩

theorem inner_sign {c : Char} {text : String} (htext : text.toList = [c]) (hc : c ∈ signChars)
    (hspaced : spaced = true ∨ c ∈ separators) : Inner (sign spaced text) where
  toApart := apart_sign htext hc hspaced
  name h := nomatch h
  sign _ := by
    constructor
    · rintro rfl
      obtain rfl := (List.cons.inj htext).1
      revert hc
      decide
    · rintro rfl
      cases htext

theorem inner_literal (l : StringLiteral) : Inner (l.word spaced) where
  toApart := apart_literal l
  name h := nomatch h
  sign h := nomatch h

theorem aliasWords_inner (as? : Option BoundName) : ∀ w ∈ aliasWords as?, Inner w := by
  cases as? with
  | none => simp [aliasWords]
  | some n => simp [aliasWords, n.inner, inner_keyword]

theorem listWords_inner (names : List ListedName) : ∀ w ∈ listWords names, Inner w := by
  have hcomma : Inner (sign false ",") := inner_sign (c := ',') rfl (by decide) (by decide)
  fun_induction listWords names with
  | case1 => simp
  | case2 n => exact List.forall_mem_cons.mpr ⟨n.name.inner, aliasWords_inner _⟩
  | case3 n r _ ih =>
    refine List.forall_mem_cons.mpr ⟨n.name.inner, List.forall_mem_append.mpr ⟨aliasWords_inner _, ?_⟩⟩
    exact List.forall_mem_cons.mpr ⟨hcomma, ih⟩

theorem bracedWords_inner (names : List ListedName) : ∀ w ∈ bracedWords names, Inner w := by
  have hopen : Inner (sign true "\x7b") := inner_sign (c := '{') rfl (by decide) (by decide)
  have hclose : Inner (sign true "\x7d") := inner_sign (c := '}') rfl (by decide) (by decide)
  refine List.forall_mem_cons.mpr ⟨hopen, List.forall_mem_append.mpr ⟨listWords_inner names, ?_⟩⟩
  exact List.forall_mem_singleton.mpr hclose

theorem typeWords_inner (type : Bool) : ∀ w ∈ typeWords type, Inner w := by
  cases type <;> simp [typeWords, inner_keyword]

theorem Clause.words_inner (clause : Clause) : ∀ w ∈ clause.words, Inner w := by
  have hcomma : Inner (sign false ",") := inner_sign (c := ',') rfl (by decide) (by decide)
  have hstar : Inner (sign true "*") := inner_sign (c := '*') rfl (by decide) (by decide)
  cases clause with
  | default n => simpa [words] using n.inner
  | namespaced n => exact List.forall_mem_cons.mpr ⟨hstar, aliasWords_inner _⟩
  | named names => exact bracedWords_inner names
  | defaultAndNamespace n all =>
    simpa only [words, List.forall_mem_cons] using ⟨n.inner, hcomma, hstar, aliasWords_inner (some all)⟩
  | defaultAndNamed n names =>
    simpa only [words, List.forall_mem_cons] using ⟨n.inner, hcomma, bracedWords_inner names⟩

namespace Declaration

theorem clauseWords_inner (d : Declaration) : ∀ w ∈ d.clauseWords, Inner w := by
  have hfrom : Inner (ident "from") := inner_keyword _ (by decide)
  cases d with
  | sideEffect => simp [clauseWords]
  | imported type clause =>
    simpa only [clauseWords, List.forall_mem_append, List.forall_mem_singleton] using
      ⟨⟨typeWords_inner type, clause.words_inner⟩, hfrom⟩
  | exported type names =>
    simpa only [clauseWords, List.forall_mem_append, List.forall_mem_singleton] using
      ⟨⟨typeWords_inner type, bracedWords_inner names⟩, hfrom⟩
  | exportedAll as? =>
    have hstar : Inner (sign true "*") := inner_sign (c := '*') rfl (by decide) (by decide)
    refine List.forall_mem_cons.mpr ⟨hstar, List.forall_mem_append.mpr ⟨aliasWords_inner as?, ?_⟩⟩
    exact List.forall_mem_singleton.mpr hfrom
  | called => simpa [clauseWords] using inner_sign (c := '(') rfl (by decide) (by decide)
  | listed type names =>
    exact List.forall_mem_append.mpr ⟨typeWords_inner type, bracedWords_inner names⟩
  | constant n l =>
    have hequals : Inner (sign true "=") := inner_sign (c := '=') rfl (by decide) (by decide)
    simpa [clauseWords] using ⟨inner_keyword _ (by decide), n.inner, hequals, inner_literal l⟩

theorem sourceWords_inner (d : Declaration) : ∀ w ∈ d.sourceWords, Inner w := by
  have hend : Inner (sign false ";") := inner_sign (c := ';') rfl (by decide) (by decide)
  have hclose : Inner (sign false ")") := inner_sign (c := ')') rfl (by decide) (by decide)
  unfold sourceWords
  split
  · simpa using hend
  · simpa using ⟨inner_literal _, hclose, hend⟩
  · simpa using ⟨inner_literal _, hend⟩

theorem words_apart (d : Declaration) : ∀ w ∈ d.words, Apart w := by
  have hkeyword : Apart d.keyword := by
    cases d <;> exact apart_ident (by decide +kernel)
  refine List.forall_mem_cons.mpr ⟨hkeyword, fun w hw => ?_⟩
  rcases List.mem_append.mp hw with hw | hw
  · exact (d.clauseWords_inner w hw).toApart
  · exact (d.sourceWords_inner w hw).toApart

end Declaration

/-- A text of declarations begins with a blank, or with nothing. -/
theorem text_cons (d : Declaration) (ds : List Declaration) :
    text (d :: ds) = ' ' :: (d.keyword.text.toList ++ Word.spell (d.clauseWords ++ d.sourceWords) ++ text ds) := by
  have hspaced : d.keyword.spaced = true := by cases d <;> rfl
  simp [text, Declaration.words, Word.chars, Word.gap, hspaced]

/-- The text of declarations is read as their words. -/
theorem tokenize_text (ds : List Declaration) :
    tokenize (String.ofList (text ds)) = .ok (Word.tokensAt .start (ds.flatMap Declaration.words)) := by
  refine Word.tokenize_spell (readable_of_apart (fun w hw => ?_) true) fun hmark => ?_
  · obtain ⟨d, -, hw⟩ := List.mem_flatMap.mp hw
    exact d.words_apart w hw
  · cases ds with
    | nil => simp [Word.spell] at hmark
    | cons d ds =>
      rw [show Word.spell _ = text (d :: ds) from rfl, text_cons] at hmark
      simp at hmark

/-! ## The imports among the words -/

section Scanning

variable {p : Position} {ts : List Token} {vs : List Word}

theorem tokensAt_append (p : Position) (ws vs : List Word) :
    Word.tokensAt p (ws ++ vs) = Word.tokensAt p ws ++ Word.tokensAt (p.after (Word.spell ws)) vs := by
  induction ws generalizing p with
  | nil => rfl
  | cons w ws ih =>
    rw [List.cons_append, Word.tokensAt_cons, Word.tokensAt_cons, ih, Word.spell_cons, Position.after_append,
      List.cons_append]

theorem isIdent_token {name : String} : (w.token p).isIdent name = false ↔ (w.kind = .ident → w.text ≠ name) := by
  by_cases hkind : w.kind = .ident <;> by_cases htext : w.text = name <;> simp [Token.isIdent, Word.token, hkind, htext]

theorem isPunct_token {text : String} : (w.token p).isPunct text = false ↔ (w.kind = .punct → w.text ≠ text) := by
  by_cases hkind : w.kind = .punct <;> by_cases htext : w.text = text <;> simp [Token.isPunct, Word.token, hkind, htext]

/-- Words that begin nothing have no imports. -/
theorem ofTokens_inner (h : ∀ w ∈ ws, Inner w) (p : Position) (ts : List Token) :
    ofTokens false (Word.tokensAt p ws ++ ts) = ofTokens false ts := by
  induction ws generalizing p with
  | nil => rfl
  | cons w ws ih =>
    obtain ⟨hw, hws⟩ := List.forall_mem_cons.mp h
    have himport : (w.token p).isIdent "import" = false := isIdent_token.mpr fun h => (hw.name h).1
    have hexport : (w.token p).isIdent "export" = false := isIdent_token.mpr fun h => (hw.name h).2
    have hpoint : (w.token p).isPunct "." = false := isPunct_token.mpr fun h => (hw.sign h).1
    have hoptional : (w.token p).isPunct "?." = false := isPunct_token.mpr fun h => (hw.sign h).2
    simp only [Word.tokensAt_cons, List.cons_append, ofTokens, himport, hexport, hpoint, hoptional, Bool.false_eq_true,
      if_false, Bool.or_self, Option.toList_none, List.nil_append, ih hws]

/-- No sign is the word before a source. -/
theorem filter_sign {text : String} :
    (ts.head?.filter fun s => ((sign spaced text).token p).isIdent "from" && s.kind = .string) = none := by
  have hident : ((sign spaced text).token p).isIdent "from" = false := isIdent_token.mpr fun h => nomatch h
  simp [hident]

/-- A word that neither is a string literal nor opens the arguments of a call. -/
structure InClause (w : Word) : Prop where
  string : w.kind ≠ .string
  call : w.kind = .punct → w.text ≠ "("

/-- Words that are walked over on the way to a source, whatever follows them but a string literal. -/
structure Passed (ws : List Word) : Prop where
  inClause : ∀ w ∈ ws, InClause w
  passed : ∀ p ts, (∀ t ∈ ts.head?, t.kind ≠ .string) →
    clauseSource false (Word.tokensAt p ws ++ ts) = clauseSource false ts

namespace Passed

theorem nil : Passed [] := ⟨by simp, fun _ _ _ => rfl⟩

theorem append (hws : Passed ws) (hvs : Passed vs) : Passed (ws ++ vs) where
  inClause := List.forall_mem_append.mpr ⟨hws.inClause, hvs.inClause⟩
  passed p ts hts := by
    rw [tokensAt_append, List.append_assoc, hws.passed, hvs.passed _ _ hts]
    intro t ht
    cases vs with
    | nil => exact hts t ht
    | cons v vs =>
      cases ht
      exact (hvs.inClause v List.mem_cons_self).string

theorem cons (hw : Passed [w]) (hvs : Passed vs) : Passed (w :: vs) := hw.append hvs

theorem ident {text : String} (himport : text ≠ "import") (hexport : text ≠ "export") : Passed [ident text] where
  inClause := by simpa using ⟨by simp [Import.ident], by simp [Import.ident]⟩
  passed p ts hts := by
    have hnone : (ts.head?.filter fun s => ((Import.ident text).token p).isIdent "from" && s.kind = .string) = none := by
      rw [Option.filter_eq_none_iff]
      intro s hs
      simp [hts s hs]
    have hkind : ((Import.ident text).token p).kind = .ident := rfl
    have htext : ((Import.ident text).token p).text = text := rfl
    simp only [Word.tokensAt, List.cons_append, List.nil_append, clauseSource, Bool.false_eq_true, if_false, hnone,
      hkind, htext, himport, hexport, decide_false, Bool.or_self]

theorem name (n : BoundName) : Passed [Import.ident n.text] := ident n.ne_import n.ne_export

theorem sign {text : String} (htext : text = "*" ∨ text = ",") : Passed [sign spaced text] where
  inClause := by rcases htext with rfl | rfl <;> simpa using ⟨by simp [Import.sign], by simp [Import.sign]⟩
  passed p ts _ := by
    have hkind : ((Import.sign spaced text).token p).kind = .punct := rfl
    have hbrace : ((Import.sign spaced text).token p).text ≠ "\x7b" := by
      rcases htext with rfl | rfl <;> simp [Import.sign, Word.token]
    have hpassed : (((Import.sign spaced text).token p).text = "*" || ((Import.sign spaced text).token p).text = ",") = true := by
      rcases htext with rfl | rfl <;> rfl
    simp only [Word.tokensAt, List.cons_append, List.nil_append, clauseSource, Bool.false_eq_true, if_false, filter_sign,
      hkind, hbrace, hpassed, if_true]

/-- In braces, words are walked over up to the closing one. -/
theorem clauseSource_inBraces (h : ∀ w ∈ ws, w.kind = .punct → w.text ≠ "\x7d") (p : Position) (ts : List Token) :
    clauseSource true (Word.tokensAt p (ws ++ [Import.sign true "\x7d"]) ++ ts) = clauseSource false ts := by
  induction ws generalizing p with
  | nil =>
    have hclose : ((Import.sign true "\x7d").token p).isPunct "\x7d" = true := by simp [Token.isPunct, Word.token, Import.sign]
    simp only [List.nil_append, Word.tokensAt, List.cons_append, clauseSource, hclose, if_true, Bool.not_true]
  | cons w ws ih =>
    obtain ⟨hw, hws⟩ := List.forall_mem_cons.mp h
    simp only [List.cons_append, Word.tokensAt_cons, clauseSource, isPunct_token.mpr hw, if_true, Bool.not_false, ih hws]

/-- Between braces there are names and commas. -/
theorem mem_listWords {names : List ListedName} (hw : w ∈ listWords names) :
    w.kind = .ident ∨ w = Import.sign false "," := by
  have halias {as? : Option BoundName} (hw : w ∈ aliasWords as?) : w.kind = .ident := by
    cases as? with
    | none => cases hw
    | some n =>
      rcases List.mem_pair.mp hw with rfl | rfl <;> rfl
  fun_induction listWords names with
  | case1 => cases hw
  | case2 n =>
    rcases List.mem_cons.mp hw with rfl | hw
    · exact Or.inl rfl
    · exact Or.inl (halias hw)
  | case3 n r _ ih =>
    rcases List.mem_cons.mp hw with rfl | hw
    · exact Or.inl rfl
    rcases List.mem_append.mp hw with hw | hw
    · exact Or.inl (halias hw)
    rcases List.mem_cons.mp hw with rfl | hw
    · exact Or.inr rfl
    · exact ih hw

/-- Names in braces are walked over together. -/
theorem braced (names : List ListedName) : Passed (bracedWords names) where
  inClause := by
    have hlist : ∀ w ∈ listWords names, InClause w := by
      intro w hw
      rcases mem_listWords hw with hkind | rfl
      · exact ⟨by simp [hkind], by simp [hkind]⟩
      · exact ⟨by decide, by decide⟩
    refine List.forall_mem_cons.mpr ⟨⟨by decide, by decide⟩, List.forall_mem_append.mpr ⟨hlist, ?_⟩⟩
    exact List.forall_mem_singleton.mpr ⟨by decide, by decide⟩
  passed p ts _ := by
    have hbrace : ∀ w ∈ listWords names, w.kind = .punct → w.text ≠ "\x7d" := by
      intro w hw
      rcases mem_listWords hw with hkind | rfl
      · simp [hkind]
      · decide
    rw [bracedWords, Word.tokensAt_cons, List.cons_append, clauseSource, filter_sign]
    exact clauseSource_inBraces hbrace _ ts

theorem aliased (as? : Option BoundName) : Passed (aliasWords as?) := by
  cases as? with
  | none => exact nil
  | some n => exact (ident (by decide) (by decide)).cons (name n)

theorem type (type : Bool) : Passed (typeWords type) := by
  cases type with
  | false => exact nil
  | true => exact ident (by decide) (by decide)

theorem clause (clause : Clause) : Passed clause.words := by
  cases clause with
  | default n => exact name n
  | namespaced n => exact (sign (Or.inl rfl)).cons (aliased _)
  | named names => exact braced names
  | defaultAndNamespace n all => exact (name n).cons ((sign (Or.inr rfl)).cons ((sign (Or.inl rfl)).cons (aliased _)))
  | defaultAndNamed n names => exact (name n).cons ((sign (Or.inr rfl)).cons (braced names))

end Passed

/-- The literal behind `from` is the source. -/
theorem clauseSource_from (l : StringLiteral) (p : Position) (ts : List Token) :
    clauseSource false (Word.tokensAt p (ident "from" :: l.word spaced :: ws) ++ ts) =
      some ((l.word spaced).token (p.after (ident "from").chars)) := by
  rfl

/-- What is walked over on the way to a source. -/
theorem clauseSource_passed (h : Passed ws) (l : StringLiteral) (p : Position) (ts : List Token) :
    clauseSource false (Word.tokensAt p (ws ++ ident "from" :: l.word spaced :: vs) ++ ts) =
      some ((l.word spaced).token (p.after (Word.spell (ws ++ [ident "from"])))) := by
  rw [tokensAt_append, List.append_assoc, h.passed, clauseSource_from]
  · simp [Word.spell, Position.after_append]
  · rintro t ⟨⟩
    exact fun h => nomatch h

/-- Behind `import`, what begins neither a call nor a literal is a clause. -/
theorem afterImport_clause (h : Passed ws) (l : StringLiteral) (p : Position) (ts : List Token) :
    afterImport (Word.tokensAt p (ws ++ ident "from" :: l.word true :: vs) ++ ts) =
      ofToken? ((l.word true).token (p.after (Word.spell (ws ++ [ident "from"])))) .static := by
  have hfirst : ∃ w vs', InClause w ∧ ws ++ ident "from" :: l.word true :: vs = w :: vs' := by
    cases ws with
    | nil => exact ⟨_, _, ⟨by decide, by decide⟩, rfl⟩
    | cons w ws => exact ⟨w, _, h.inClause w List.mem_cons_self, rfl⟩
  have hsource : clauseSource false (Word.tokensAt p (ws ++ ident "from" :: l.word true :: vs) ++ ts) = some _ :=
    clauseSource_passed h l p ts
  obtain ⟨w, vs', hw, heq⟩ := hfirst
  have hcall : (w.token p).isPunct "(" = false := isPunct_token.mpr hw.call
  have hstring : (w.token p).kind ≠ .string := hw.string
  rw [heq, Word.tokensAt_cons, List.cons_append] at hsource ⊢
  unfold afterImport
  simp only [hcall, Bool.false_eq_true, if_false, hstring, hsource, Option.bind_some]

/-- The words that a clause behind `export` may begin with. -/
def exportOpeners : List Word := [sign true "*", sign true "\x7b", ident "type"]

/-- Behind `export`, what begins with one of the openers is a clause. -/
theorem afterExport_clause (hw : w ∈ exportOpeners) (p : Position) (ts : List Token) :
    afterExport (Word.tokensAt p (w :: ws) ++ ts) =
      (clauseSource false (Word.tokensAt p (w :: ws) ++ ts)).bind fun source => ofToken? source .reExport := by
  have hbegins : ((w.token p).isPunct "*" || (w.token p).isPunct "\x7b" || (w.token p).isIdent "type") = true := by
    simp only [exportOpeners, List.mem_cons, List.not_mem_nil, or_false] at hw
    rcases hw with rfl | rfl | rfl <;> rfl
  rw [Word.tokensAt_cons, List.cons_append, afterExport, if_pos hbegins]

/-- A clause behind `export` with a source. -/
theorem afterExport_source (hw : w ∈ exportOpeners) (h : Passed (w :: ws)) (l : StringLiteral) (p : Position)
    (ts : List Token) :
    afterExport (Word.tokensAt p (w :: ws ++ ident "from" :: l.word true :: vs) ++ ts) =
      ofToken? ((l.word true).token (p.after (Word.spell (w :: ws ++ [ident "from"])))) .reExport := by
  rw [List.cons_append, afterExport_clause hw, ← List.cons_append, clauseSource_passed h, Option.bind_some]

/-- A clause behind `export` that ends without a source. -/
theorem afterExport_none (hw : w ∈ exportOpeners) (h : Passed (w :: ws)) (p : Position) (ts : List Token) :
    afterExport (Word.tokensAt p (w :: ws ++ [sign false ";"]) ++ ts) = none := by
  rw [List.cons_append, afterExport_clause hw, ← List.cons_append, tokensAt_append, List.append_assoc, h.passed]
  · rw [Word.tokensAt_cons, List.cons_append, clauseSource, filter_sign]
    rfl
  · intro t ht
    cases ht
    simp [Word.token, sign]

/-- A list of exported names begins with a brace, or with `type`. -/
theorem exists_typeWords_append (type : Bool) (names : List ListedName) :
    ∃ w ∈ exportOpeners, ∃ ws, typeWords type ++ bracedWords names = w :: ws := by
  cases type with
  | false => exact ⟨sign true "\x7b", by simp [exportOpeners], _, rfl⟩
  | true => exact ⟨ident "type", by simp [exportOpeners], _, rfl⟩

/-- The import of a source covers what stands between its quotes. -/
theorem ofToken?_source (s : QuotedSource) (p : Position) (kind : ImportKind) :
    ofToken? ((s.literal.word spaced).token p) kind =
      let quote := p.offset + if spaced then 1 else 0
      some ⟨s.text, quote + 1, quote + 1 + s.text.utf8ByteSize, kind⟩ := by
  have hquote : s.quote.utf8Size = 1 := by
    rcases s.isQuote with h | h <;> rw [h] <;> decide
  have hback : '\\' ∉ s.text.toList := fun h => (s.fits _ h).2.1 rfl
  have hgap : byteLength (s.literal.word spaced).gap = if spaced then 1 else 0 := by
    cases spaced <;> rfl
  have hstart : ((s.literal.word spaced).token p).start.offset = p.offset + if spaced then 1 else 0 := by
    rw [← hgap, Word.token, offset_after]
  have hvalue : ((s.literal.word spaced).token p).stringValue? = some s.text := by
    simp [Token.stringValue?, Word.token, StringLiteral.word, QuotedSource.literal, unescape_eq_self hback]
  have hsize : ((s.literal.word spaced).token p).text.utf8ByteSize = 1 + (s.text.utf8ByteSize + 1) := by
    rw [utf8ByteSize_eq, utf8ByteSize_eq, Word.token, StringLiteral.word, String.toList_ofList, QuotedSource.literal,
      byteLength_cons, byteLength_append, byteLength_cons, hquote]
    rfl
  rw [ofToken?, hvalue, Option.map_some, Token.endOffset, hstart, hsize]
  have hstop : ∀ quote size : Nat, quote + (1 + (size + 1)) - 1 = quote + 1 + size := by omega
  simp only [hstop]

end Scanning

namespace Declaration

variable {p : Position} {ts : List Token}

/-- The import of a declaration is the one of its literal. -/
theorem importAt_eq {d : Declaration} {s : QuotedSource} {kind : ImportKind} (h : d.source? = some (s, kind)) (p : Position) :
    d.importAt p.offset = ofToken? ((s.literal.word (kind ≠ .dynamic)).token
      ((p.after d.keyword.chars).after (Word.spell d.clauseWords))) kind := by
  rw [ofToken?_source, importAt, h, Option.map_some, offset_after, offset_after, Word.spell_cons, byteLength_append]
  cases kind <;> simp [Nat.add_assoc]

/-- The import that the first word of a declaration begins is the one of the declaration. -/
theorem keyword_begins (d : Declaration) (p : Position) (ts : List Token) :
    let r := Word.tokensAt (p.after d.keyword.chars) (d.clauseWords ++ d.sourceWords) ++ ts
    (if (d.keyword.token p).isIdent "import" then afterImport r
      else if (d.keyword.token p).isIdent "export" then afterExport r else none) = d.importAt p.offset := by
  cases d with
  | sideEffect source =>
    rw [importAt_eq rfl]
    rfl
  | imported type clause source =>
    rw [importAt_eq rfl, clauseWords, List.append_assoc]
    exact afterImport_clause ((Passed.type type).append (Passed.clause clause)) source.literal _ ts
  | exported type names source =>
    obtain ⟨w, hw, ws, hwords⟩ := exists_typeWords_append type names
    have hpassed := (Passed.type type).append (Passed.braced names)
    rw [importAt_eq rfl, clauseWords, List.append_assoc]
    rw [hwords] at hpassed ⊢
    exact afterExport_source hw hpassed source.literal _ ts
  | exportedAll as? source =>
    have hpassed : Passed (sign true "*" :: aliasWords as?) := (Passed.sign (Or.inl rfl)).cons (Passed.aliased as?)
    rw [importAt_eq rfl, clauseWords, List.cons_append, List.append_assoc]
    exact afterExport_source (by simp [exportOpeners]) hpassed source.literal _ ts
  | called source =>
    rw [importAt_eq rfl]
    rfl
  | listed type names =>
    obtain ⟨w, hw, ws, hwords⟩ := exists_typeWords_append type names
    have hpassed := (Passed.type type).append (Passed.braced names)
    rw [clauseWords]
    rw [hwords] at hpassed ⊢
    exact afterExport_none hw hpassed _ ts
  | constant => rfl

/-- **A declaration has its own import**, and then the scan goes on behind it. -/
theorem ofTokens_words (d : Declaration) (p : Position) (ts : List Token) :
    ofTokens false (Word.tokensAt p d.words ++ ts) = (d.importAt p.offset).toList ++ ofTokens false ts := by
  have hpoint : ((d.keyword.token p).isPunct "." || (d.keyword.token p).isPunct "?.") = false := by
    cases d <;> rfl
  have hinner : ∀ w ∈ d.clauseWords ++ d.sourceWords, Inner w :=
    List.forall_mem_append.mpr ⟨d.clauseWords_inner, d.sourceWords_inner⟩
  rw [words, Word.tokensAt_cons, List.cons_append, ofTokens, hpoint, ofTokens_inner hinner]
  simp only [Bool.false_eq_true, if_false, keyword_begins d p ts]

/-- Declarations have their imports one after another. -/
theorem ofTokens_flatMap (ds : List Declaration) (p : Position) :
    ofTokens false (Word.tokensAt p (ds.flatMap words)) = importsAt p.offset ds := by
  induction ds generalizing p with
  | nil => rfl
  | cons d ds ih =>
    rw [List.flatMap_cons, tokensAt_append, ofTokens_words, ih, importsAt, offset_after]

end Declaration

/-! ## Scanning the text -/

namespace Declaration

/-- The source of a declaration follows its clause. -/
theorem exists_sourceWords {d : Declaration} {s : QuotedSource} {kind : ImportKind} (h : d.source? = some (s, kind)) :
    ∃ after, d.sourceWords = s.literal.word (kind ≠ .dynamic) :: after := by
  unfold sourceWords
  cases kind <;> rw [h] <;> exact ⟨_, rfl⟩

theorem importAt_selects {d : Declaration} {before after : List Char} {i : Import}
    (hi : i ∈ d.importAt (byteLength before)) : Selects (before ++ (Word.spell d.words ++ after)) i := by
  obtain ⟨⟨s, kind⟩, hs, rfl⟩ := Option.map_eq_some_iff.mp hi
  obtain ⟨more, hmore⟩ := exists_sourceWords hs
  have hgap : (s.literal.word (kind ≠ .dynamic)).gap = if kind = .dynamic then [] else [' '] := by
    cases kind <;> rfl
  refine ⟨before ++ Word.spell (d.keyword :: d.clauseWords) ++ (s.literal.word (kind ≠ .dynamic)).gap, s.quote,
    Word.spell more ++ after, s.isQuote, ?_, ?_, rfl⟩
  · rw [words, hmore, Word.spell_cons, Word.spell_cons, Word.spell_append, Word.spell_cons, Word.chars]
    simp [StringLiteral.word, QuotedSource.literal, Word.chars]
  · rw [byteLength_append, byteLength_append, hgap]
    cases kind <;> rfl

theorem importsAt_selects (ds : List Declaration) (before : List Char) :
    ∀ i ∈ importsAt (byteLength before) ds, Selects (before ++ text ds) i := by
  induction ds generalizing before with
  | nil => simp [importsAt]
  | cons d ds ih =>
    have htext : text (d :: ds) = Word.spell d.words ++ text ds := by
      rw [text, List.flatMap_cons, Word.spell_append, text]
    intro i hi
    rw [importsAt, ← byteLength_append] at hi
    rcases List.mem_append.mp hi with hi | hi
    · rw [htext]
      exact importAt_selects (Option.mem_toList.mp hi)
    · have hselects := ih _ i hi
      rwa [List.append_assoc, ← htext] at hselects

/-- The imports have the sources and the kinds of the declarations that have any. -/
theorem map_importsAt (ds : List Declaration) (offset : Nat) :
    (importsAt offset ds).map (fun i => (i.specifier, i.kind)) =
      (ds.filterMap source?).map fun s => (s.1.text, s.2) := by
  induction ds generalizing offset with
  | nil => rfl
  | cons d ds ih =>
    rw [importsAt, List.map_append, ih, importAt]
    cases h : d.source? with
    | none => simp [h]
    | some s => simp [h]

end Declaration

/-- **Scanning is exact on declarations.** The text of declarations has the imports of those that name a module, in
their order and each of its kind, and every one covers its specifier in the text. -/
theorem scan_text (ds : List Declaration) :
    scan (String.ofList (text ds)) = .ok (Declaration.importsAt 0 ds) ∧
      (Declaration.importsAt 0 ds).map (fun i => (i.specifier, i.kind)) =
        (ds.filterMap Declaration.source?).map (fun s => (s.1.text, s.2)) ∧
      ∀ i ∈ Declaration.importsAt 0 ds, Selects (text ds) i := by
  refine ⟨?_, Declaration.map_importsAt ds 0, Declaration.importsAt_selects ds []⟩
  rw [scan, tokenize_text, Except.map, Declaration.ofTokens_flatMap]
  rfl

/-- A text in which no name is what it seems. -/
example :
    let name : BoundName := ⟨"from", by decide +kernel, by decide, by decide⟩
    let source : QuotedSource := ⟨'\'', .inr rfl, "./s", by simp [FitsBetween]⟩
    String.ofList (text [.imported true (.defaultAndNamed name [⟨name, some name⟩]) source, .listed false [⟨name, none⟩]]) =
      " import type from, \x7b from as from \x7d from './s'; export \x7b from \x7d;" := by
  rfl

end AppBundler.Import
