import AppBundler.Json.Printer
import AppBundler.Proofs.Source.Comments
import AppBundler.Proofs.Source.Declarations
import AppBundler.Proofs.Source.Tree.Handlers
/-!
# Texts that are laid out from tokens

A generated text is written token by token, with blanks and line breaks between the tokens as it pleases. When every
token is read before what is written behind it, the tokens of the text are the ones that it was written from.
-/

namespace AppBundler

open Lexeme Lexer

namespace Token

/-- What tokens spell, with what stands between them. -/
def spell (ts : List Token) : List Char := ts.flatMap fun t => t.gap.toList ++ t.text.toList

/-- A string literal for a text behind a gap, wherever it stands. -/
def ofText (gap value : String) : Token := ⟨.string, String.ofList (Json.quoted value), gap, .start, none⟩

/-- A number behind a gap, wherever it stands. -/
def ofNumeral (gap text : String) : Token := ⟨.number, text, gap, .start, none⟩

variable {t : Token} {ts us : List Token} {gap text : String}

@[simp] theorem ofMark_text : (ofMark gap text).text = text := rfl

@[simp] theorem ofText_kind : (ofText gap text).kind = .string := rfl

@[simp] theorem isIdent_ofText (name : String) : (ofText gap text).isIdent name = false := by
  simp [isIdent]

@[simp] theorem isPunct_ofText (name : String) : (ofText gap text).isPunct name = false := by
  simp [isPunct]

@[simp] theorem spell_nil : spell [] = [] := rfl

@[simp] theorem spell_cons : spell (t :: ts) = t.gap.toList ++ t.text.toList ++ spell ts := List.flatMap_cons

@[simp] theorem spell_append : spell (ts ++ us) = spell ts ++ spell us := List.flatMap_append

end Token

open Token

/-- A text of blanks. -/
def IsBlankText (s : List Char) : Prop := ∀ c ∈ s, isBlank c = true

instance (s : List Char) : Decidable (IsBlankText s) := List.decidableBAll _ s

theorem IsBlankText.append {g r : List Char} (hg : IsBlankText g) (hr : IsBlankText r) : IsBlankText (g ++ r) :=
  List.forall_mem_append.mpr ⟨hg, hr⟩

theorem IsBlankText.scan {g r : List Char} (h : IsBlankText g) : Gap.scan (g ++ r) = Gap.precede g (Gap.scan r) := by
  induction g with
  | nil => rw [List.nil_append, Gap.precede_nil]
  | cons c g ih =>
    obtain ⟨hc, hg⟩ := List.forall_mem_cons.mp h
    rw [List.cons_append, Gap.scan_blank hc, ih hg, Gap.precede_precede]
    rfl

/-- The tokens can be read one after the other before a text, at a place where an operand may begin or not, with elements
as well as without. -/
inductive Laid : (operand : Bool) → List Token → List Char → Prop where
  | nil (operand : Bool) (r : List Char) : Laid operand [] r
  | cons {operand : Bool} {t : Token} {ts : List Token} {r : List Char} {c : Char} {s : List Char}
    (hgap : IsBlankText t.gap.toList) (hdoc : t.doc = none)
    (htext : t.text.toList = c :: s) (hbegin : isBlank c = false ∧ c ≠ '/')
    (hlexeme : ∀ jsx, lexeme jsx operand (t.text.toList ++ (spell ts ++ r)) = .ok (t.kind, ⟨t.text.toList, spell ts ++ r⟩))
    (hrest : Laid (Token.operandMayFollow (some t)) ts r) : Laid operand (t :: ts) r

variable {gap text : String} {operand : Bool} {ts : List Token} {r : List Char}

namespace Laid

/-- **Tokens that are laid out are read**, but for where they stand. -/
theorem steps (h : Laid operand ts r) (jsx : Bool) (last : Option Token) (hlast : Token.operandMayFollow last = operand)
    (p : Position) :
    ∃ us z, Steps jsx ⟨last, p, spell ts ++ r⟩ us z ∧ z.rest = r ∧ us.map Token.unplaced = ts.map Token.unplaced := by
  induction h generalizing last p with
  | nil operand r => exact ⟨[], _, .refl _, rfl, rfl⟩
  | @cons operand t ts r c s hgap hdoc htext hbegin hlexeme _ ih =>
    let placed : Token := { t with start := p.after t.gap.toList }
    obtain ⟨us, z, hsteps, hz, hus⟩ := ih (some placed) rfl (placed.start.after t.text.toList)
    have hstop : Gap.scan (t.text.toList ++ (spell ts ++ r)) = .ok ⟨[], none, t.text.toList ++ (spell ts ++ r)⟩ := by
      rw [htext, List.cons_append, Gap.scan_eq_nil_iff]
      exact ⟨hbegin.1, fun hslash => absurd hslash hbegin.2⟩
    refine ⟨placed :: us, z, .head ⟨⟨none, ?_, hdoc⟩, rfl, ?_, ?_, rfl, rfl⟩ hsteps, hz, ?_⟩
    · rw [spell_cons, List.append_assoc, List.append_assoc, hgap.scan, hstop]
      simp [Gap.precede, placed]
    · simp [placed, htext]
    · rw [hlast]
      exact hlexeme jsx
    · rw [List.map_cons, List.map_cons, hus]
      rfl

/-- A text that is laid out is tokenized in either way. -/
theorem tokenize (h : Laid true ts r) (hfirst : (spell ts ++ r).head? ≠ some '#') (hr : IsBlankText r) :
    ∃ all, tokenize (String.ofList (spell ts ++ r)) = .ok all ∧ all.map Token.unplaced = ts.map Token.unplaced := by
  have hmark : ¬ ['#', '!'] <+: spell ts ++ r := by
    rintro ⟨s, hs⟩
    rw [← hs] at hfirst
    exact hfirst rfl
  have hend : Gap.scan r = .ok ⟨r, none, []⟩ := by
    have hscan := hr.scan (r := [])
    rw [List.append_nil] at hscan
    rw [hscan, Gap.scan, Gap.precede, List.append_nil]
  have hrun (jsx : Bool) : ∃ all, run jsx (spell ts ++ r) = .ok all ∧ all.map Token.unplaced = ts.map Token.unplaced := by
    obtain ⟨us, z, hsteps, hz, hus⟩ := h.steps jsx none rfl .start
    refine ⟨us, run_eq_ok_iff_steps.mpr ⟨z, ?_, r, none, by rw [hz, hend]⟩, hus⟩
    rw [Place.first_of_not_mark hmark]
    exact hsteps
  rw [AppBundler.tokenize, String.toList_ofList, tokens_eq_run]
  exact hrun _

/-! ## One token -/

/-- The text is one of some characters. -/
def isOneOf (chars : List Char) (text : String) : Bool := chars.any fun c => text.toList = [c]

theorem exists_of_isOneOf {chars : List Char} {text : String} (h : isOneOf chars text = true) :
    ∃ c ∈ chars, text.toList = [c] := by
  obtain ⟨c, hc, htext⟩ := List.any_eq_true.mp h
  exact ⟨c, hc, of_decide_eq_true htext⟩

variable (gap text : String)

/-- A word is read before what no name goes on with. -/
theorem word (hgap : IsBlankText gap.toList) (htext : isName text.toList = true)
    (hend : ∀ d ∈ (spell ts ++ r).head?, isIdentContinue d = false) (hts : Laid (operandKeywords.contains text) ts r)
    (operand : Bool) : Laid operand (ofWord gap text :: ts) r := by
  obtain ⟨c, s, hs, hc⟩ := exists_cons_of_isName htext
  exact .cons hgap rfl hs ⟨isBlank_of_isIdentStart hc, ne_of_isIdentStart hc (by decide)⟩
    (fun _ => lexeme_name htext hend) hts

/-- A word is read before a blank and before a separator. -/
theorem plainWord (hgap : IsBlankText gap.toList) (htext : isName text.toList = true) (hend : Stops (spell ts ++ r))
    (hts : ∀ operand, Laid operand ts r) : ∀ operand, Laid operand (ofWord gap text :: ts) r :=
  word gap text hgap htext hend.isIdentContinue (hts _)

variable {text} in
/-- A mark is read before what makes no longer one of it, an angle bracket only where no operand may begin. -/
theorem ofStandsAlone {c : Char} (hgap : IsBlankText gap.toList) (htext : text.toList = [c]) (hc : c ∈ marks)
    (halone : standsAlone c (spell ts ++ r).head? = true)
    (hdot : c = '.' → (spell ts ++ r).head?.any Char.isDigit = false) (hangle : c = '<' → operand = false)
    (hts : ∀ operand, Laid operand ts r) : Laid operand (ofMark gap text :: ts) r := by
  have hall : (marks.all fun c => !isBlank c && c != '/') = true := by decide
  have hplain := List.all_eq_true.mp hall c hc
  simp only [Bool.and_eq_true, Bool.not_eq_true', bne_iff_ne] at hplain
  refine .cons hgap rfl htext hplain (fun jsx => ?_) (hts _)
  simp only [ofMark, htext]
  exact lexeme_mark hc halone hdot hangle

variable {text} in
/-- A mark that begins no element is read before what makes no longer one of it. -/
theorem mark {c : Char} (hgap : IsBlankText gap.toList) (htext : text.toList = [c]) (hc : c ∈ marks.erase '<')
    (halone : standsAlone c (spell ts ++ r).head? = true)
    (hdot : c = '.' → (spell ts ++ r).head?.any Char.isDigit = false) (hts : ∀ operand, Laid operand ts r) (operand : Bool) :
    Laid operand (ofMark gap text :: ts) r := by
  have hangle : '<' ∉ marks.erase '<' := by decide
  exact ofStandsAlone gap hgap htext (List.mem_of_mem_erase hc) halone hdot (fun h => absurd (h ▸ hc) hangle) hts

/-- An angle bracket is read where no operand may begin. -/
theorem angle (hgap : IsBlankText gap.toList) (halone : standsAlone '<' (spell ts ++ r).head? = true)
    (hts : ∀ operand, Laid operand ts r) : Laid false (ofMark gap "<" :: ts) r :=
  ofStandsAlone gap hgap (by decide) (by decide) halone (fun h => absurd h (by decide)) (fun _ => rfl) hts

/-- A bracket is read before anything. -/
theorem bracket (hgap : IsBlankText gap.toList) (htext : isOneOf TypeExpr.brackets text = true)
    (hts : ∀ operand, Laid operand ts r) : ∀ operand, Laid operand (ofMark gap text :: ts) r := by
  have hall : (TypeExpr.brackets.all fun c => (marks.erase '<').contains c && (punctuators.all fun p => p.head? != some c) &&
      c != '.') = true := by
    decide
  obtain ⟨c, hc, htext⟩ := exists_of_isOneOf htext
  have hplain := List.all_eq_true.mp hall c hc
  simp only [Bool.and_eq_true, bne_iff_ne, List.contains_iff_mem] at hplain
  obtain ⟨⟨hmark, halone⟩, hdot⟩ := hplain
  exact mark gap hgap htext hmark (TypeExpr.standsAlone_of_head? halone _) (fun h => absurd h hdot) hts

/-- A number is read before what it does not go on with. -/
theorem numeral (hgap : IsBlankText gap.toList) (htext : isNumeral text.toList = true) (hend : EndsNumeral (spell ts ++ r))
    (hts : ∀ operand, Laid operand ts r) (operand : Bool) : Laid operand (ofNumeral gap text :: ts) r := by
  obtain ⟨c, s, hs, hc⟩ := exists_cons_of_isNumeral htext
  refine .cons hgap rfl hs ?_ (fun jsx => lexeme_numeral htext hend) (hts _)
  rcases hc with hc | rfl
  · have hcode := code_of_isDigit hc
    constructor
    · by_contra hblank
      rcases code_of_isBlank (by simpa using hblank) with hlow | ⟨b, -, hhigh, -⟩ <;> omega
    · rintro rfl
      exact absurd hcode (by decide)
  · decide

/-- A minus is part of two punctuators only. -/
theorem standsAlone_minus {d : Char} (hminus : d ≠ '-') (hequals : d ≠ '=') : standsAlone '-' (some d) = true := by
  have hall : ∀ p ∈ punctuators, p.head? = some '-' → p.tail.head? = some '-' ∨ p.tail.head? = some '=' := by decide
  rw [standsAlone, List.all_eq_true]
  intro p hp
  by_cases hhead : p.head? = some '-'
  · rcases hall p hp hhead with hsecond | hsecond
    · simp [hsecond, Ne.symm hminus]
    · simp [hsecond, Ne.symm hequals]
  · simp [hhead]

/-- A number is read behind a minus sign. -/
theorem negative (hgap : IsBlankText gap.toList) (htext : isNumeral text.toList = true)
    (hend : EndsNumeral (spell ts ++ r)) (hts : ∀ operand, Laid operand ts r) (operand : Bool) :
    Laid operand (ofMark gap "-" :: ofNumeral "" text :: ts) r := by
  have hnumeral := numeral "" text (by decide) htext hend hts
  obtain ⟨d, u, hd, hbegin⟩ := exists_cons_of_isNumeral htext
  have hfirst : (spell (ofNumeral "" text :: ts) ++ r).head? = some d := by simp [ofNumeral, hd]
  have halone : standsAlone '-' (spell (ofNumeral "" text :: ts) ++ r).head? = true := by
    rw [hfirst]
    rcases hbegin with hdigit | rfl
    · refine standsAlone_minus ?_ ?_ <;> rintro rfl <;> exact absurd hdigit (by decide)
    · exact standsAlone_minus (by decide) (by decide)
  have htoList : "-".toList = ['-'] := by decide
  exact mark gap hgap htoList (by decide) halone (fun h => absurd h (by decide)) hnumeral operand

/-- A sign between blanks and separators is read alone. -/
theorem sign (hgap : IsBlankText gap.toList) (htext : isOneOf Import.signChars text = true)
    (hend : Import.StandsApart (spell ts ++ r)) (hts : ∀ operand, Laid operand ts r) (operand : Bool) :
    Laid operand (ofMark gap text :: ts) r := by
  have hall : (Import.signChars.all fun c => !isBlank c && c != '/') = true := by decide
  obtain ⟨c, hc, htext⟩ := exists_of_isOneOf htext
  have hplain := List.all_eq_true.mp hall c hc
  simp only [Bool.and_eq_true, Bool.not_eq_true', bne_iff_ne] at hplain
  refine .cons hgap rfl htext hplain (fun jsx => ?_) (hts _)
  simp only [ofMark, htext]
  exact Import.lexeme_sign hc hend

end Laid

/-! ## String literals of JSON -/

namespace Json

/-- A character that is written in JSON as in a string literal: any but the controls without a letter of their own. -/
def isPlain (c : Char) : Bool := 0x20 ≤ c.toNat || c = '\n' || c = '\r' || c = '\t'

/-- Any character is written in such a way that a string literal goes on behind it. -/
theorem stringRest_escapeChar (c : Char) (r : List Char) :
    stringRest '"' (escapeChar c ++ r) = (stringRest '"' r).precede (escapeChar c) := by
  unfold escapeChar
  split_ifs with hquote hslash hback hform hline hreturn htab hcontrol
  any_goals rfl
  · -- Behind the letter stand four digits.
    have hdigit : ∀ n < 16, hexDigit n ≠ '\n' ∧ hexDigit n ≠ '"' ∧ hexDigit n ≠ '\\' := by decide
    have hdigits : ∀ d ∈ ['0', '0', hexDigit (c.toNat / 16), hexDigit (c.toNat % 16)], d ≠ '\n' ∧ d ≠ '"' ∧ d ≠ '\\' := by
      have hhigh := hdigit (c.toNat / 16) (by omega)
      have hlow := hdigit (c.toNat % 16) (by omega)
      simp only [List.forall_mem_cons, List.not_mem_nil, false_imp_iff, implies_true, and_true]
      exact ⟨by decide, by decide, hhigh, hlow⟩
    have hrest := congrArg (Scan.precede ['\\', 'u']) (stringRest_append hdigits r)
    rwa [Scan.precede_precede] at hrest
  · exact stringRest_append (List.forall_mem_singleton.mpr ⟨hline, hquote, hslash⟩) r

theorem unescape_escapeChar {c : Char} (hc : isPlain c = true) (r : List Char) :
    Token.unescape (escapeChar c ++ r) = c :: Token.unescape r := by
  unfold escapeChar
  split_ifs with hquote hslash hback hform hline hreturn htab hcontrol
  any_goals
    subst_vars
    rfl
  · subst hback
    exact absurd hc (by decide)
  · subst hform
    exact absurd hc (by decide)
  · simp only [isPlain, hline, hreturn, htab, decide_false, Bool.or_false, decide_eq_true_eq] at hc
    omega
  · exact unescape_plain hslash r

end Json

/-- A string literal that JSON writes is read as one. -/
theorem Json.lexeme_quoted {jsx operand : Bool} (value : String) (r : List Char) :
    lexeme jsx operand (quoted value ++ r) = .ok (.string, ⟨quoted value, r⟩) := by
  refine lexeme_doubleQuoted (s := value.toList.flatMap escapeChar ++ ['"']) ?_
  rw [List.append_assoc]
  exact stringRest_flatMap (by decide) stringRest_escapeChar _ _

/-- A string literal that JSON writes is read before anything. -/
theorem Laid.literal (gap value : String) (hgap : IsBlankText gap.toList) (hts : ∀ operand, Laid operand ts r)
    (operand : Bool) : Laid operand (ofText gap value :: ts) r := by
  refine .cons hgap rfl (c := '"') (s := value.toList.flatMap Json.escapeChar ++ ['"']) ?_ (by decide) (fun jsx => ?_) (hts _)
  · rw [ofText, String.toList_ofList, Json.quoted]
  · rw [ofText, String.toList_ofList]
    exact Json.lexeme_quoted value _

/-- What stands for a text is a string literal. -/
theorem Token.kind_of_stringValue? {t : Token} {value : String} (h : t.stringValue? = some value) : t.kind = .string := by
  by_contra hother
  rw [stringValue?, if_neg hother] at h
  cases h

/-- A string literal that JSON writes stands for the text when there are plain characters only. -/
theorem stringValue?_ofText (gap : String) {value : String} (h : ∀ c ∈ value.toList, Json.isPlain c = true) :
    (ofText gap value).stringValue? = some value := by
  have hinner : ((Json.quoted value).drop 1).dropLast = value.toList.flatMap Json.escapeChar := by
    rw [Json.quoted, List.drop_one, List.tail_cons, List.dropLast_concat]
  simp only [stringValue?, ofText, String.toList_ofList, hinner, if_true,
    unescape_flatMap fun c hc => Json.unescape_escapeChar (h c hc), String.ofList_toList]

/-! ## What stands behind a token -/

variable {t : Token}

theorem head?_of_spaced (hgap : t.gap = " ") : (spell (t :: ts) ++ r).head? = some ' ' := by
  have hspace : " ".toList = [' '] := by decide
  rw [spell_cons, hgap, hspace]
  rfl

theorem head?_of_tight {c : Char} (hgap : t.gap = "") (htext : t.text.toList.head? = some c) :
    (spell (t :: ts) ++ r).head? = some c := by
  have hempty : "".toList = [] := rfl
  rw [spell_cons, hgap, hempty, List.nil_append, List.append_assoc, List.head?_append, htext, Option.some_or]

theorem stops_of_spaced (hgap : t.gap = " ") : Stops (spell (t :: ts) ++ r) := by
  have hstop : ' ' ∈ stops := by decide
  rw [Stops, head?_of_spaced hgap]
  rintro d ⟨⟩
  exact hstop

theorem stops_of_tight (hgap : t.gap = "") (htext : t.text.toList.head?.any stops.contains = true) :
    Stops (spell (t :: ts) ++ r) := by
  cases hhead : t.text.toList.head? with
  | none =>
    rw [hhead] at htext
    cases htext
  | some c =>
    rw [hhead, Option.any_some, List.contains_iff_mem] at htext
    rw [Stops, head?_of_tight hgap hhead]
    rintro d ⟨⟩
    exact htext

theorem standsApart_of_spaced (hgap : t.gap = " ") : Import.StandsApart (spell (t :: ts) ++ r) := by
  rw [Import.StandsApart, head?_of_spaced hgap]
  rintro c ⟨⟩
  decide

/-! ## The imports among tokens -/

/-- What is imported is told from tokens that are shown, wherever they stand. -/
theorem Import.scan_of_shows {source : String} {all : List Token} (htokens : tokenize source = .ok all)
    (hall : all.map Token.unplaced = ts.map Token.unplaced) :
    ∃ imports, scan source = .ok imports ∧ imports.map word = (ofTokens false ts).map word := by
  refine ⟨ofTokens false all, by rw [scan, htokens, Except.map], ?_⟩
  exact (ofTokens_words (nodup_of_starts (tokenize_covers htokens).1.starts) (words_of_unplaced hall.symm)).symm

end AppBundler
