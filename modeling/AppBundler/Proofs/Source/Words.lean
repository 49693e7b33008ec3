import AppBundler.Proofs.Source.Joining
/-!
# Texts that are spelled from words

A text may be spelled out word by word, each word with a blank before it or with none. When every word is read before
what follows it, with elements as well as without, the tokens of the text are the words in their order.
-/

namespace AppBundler

open Lexeme Lexer

namespace Lexeme

variable {c d : Char} {s r : List Char} {jsx operand : Bool}

/-! ## Names -/

/-- Whether a text is a name: its first character may begin a name, and the others may go on with it. -/
def isName : List Char → Bool
  | [] => false
  | c :: s => isIdentStart c && s.all isIdentContinue

theorem exists_cons_of_isName (h : isName s = true) : ∃ c r, s = c :: r ∧ isIdentStart c = true := by
  match s, h with
  | c :: r, h => exact ⟨c, r, rfl, (Bool.and_eq_true_iff.mp h).1⟩

/-- Spans of code points above ASCII in which all blanks and no letters lie. -/
def blankSpans : List (Nat × Nat) := [(0x85, 0x85), (0xA0, 0xA0), (0x1680, 0x1680), (0x2000, 0x205F), (0x3000, 0x3000)]

/-- A table that meets none of some spans has no code point of theirs in it. -/
theorem not_inRanges_of_mem_spans {table : Array (Nat × Nat)} {spans : List (Nat × Nat)} {b : Nat × Nat} {n : Nat}
    (hall : (table.toList.all fun r => spans.all fun b => Nat.blt r.2 b.1 || Nat.blt b.2 r.1) = true)
    (hb : b ∈ spans) (hn : b.1 ≤ n ∧ n ≤ b.2) : inRanges table n = false := by
  rw [inRanges, ← Array.any_toList, List.any_eq_false]
  intro r hr hmem
  have hapart := List.all_eq_true.mp (List.all_eq_true.mp hall r hr) b hb
  simp only [Bool.or_eq_true, Nat.blt_eq] at hapart
  simp only [Bool.and_eq_true, decide_eq_true_eq] at hmem
  omega

theorem not_alphabetic_of_mem_blankSpans {b : Nat × Nat} {n : Nat} (hb : b ∈ blankSpans) (hn : b.1 ≤ n ∧ n ≤ b.2) :
    inRanges Ranges.alphabetic n = false :=
  not_inRanges_of_mem_spans (by decide +kernel) hb hn

theorem not_numeric_of_mem_blankSpans {b : Nat × Nat} {n : Nat} (hb : b ∈ blankSpans) (hn : b.1 ≤ n ∧ n ≤ b.2) :
    inRanges Ranges.numeric n = false :=
  not_inRanges_of_mem_spans (by decide +kernel) hb hn

/-- The code points of blanks. -/
theorem code_of_isBlank (h : isBlank c = true) :
    c.toNat ≤ 32 ∨ ∃ b ∈ blankSpans, 0x85 ≤ c.toNat ∧ b.1 ≤ c.toNat ∧ c.toNat ≤ b.2 := by
  simp only [isBlank, Bool.or_eq_true, Bool.and_eq_true, decide_eq_true_eq] at h
  simp only [blankSpans, List.exists_mem_cons_iff, List.not_mem_nil, false_and, exists_false, or_false]
  omega

/-- The code points of the letters of ASCII. -/
theorem code_of_isAlpha (h : c.isAlpha = true) : 65 ≤ c.toNat ∧ c.toNat ≤ 90 ∨ 97 ≤ c.toNat ∧ c.toNat ≤ 122 := by
  rcases Bool.or_eq_true_iff.mp h with hupper | hlower
  · exact .inl (by simpa [UInt32.le_iff_toNat_le] using of_decide_eq_true hupper)
  · exact .inr (by simpa [UInt32.le_iff_toNat_le] using Bool.and_eq_true_iff.mp hlower)

/-- The code points of the digits. -/
theorem code_of_isDigit (h : c.isDigit = true) : 48 ≤ c.toNat ∧ c.toNat ≤ 57 := by
  simpa [Char.isDigit, UInt32.le_iff_toNat_le] using h

/-- The code points of the characters that may begin a name. -/
theorem code_of_isIdentStart (h : isIdentStart c = true) :
    35 ≤ c.toNat ∧ c.toNat ≤ 36 ∨ 65 ≤ c.toNat ∧ c.toNat ≤ 122 ∨
      0x80 ≤ c.toNat ∧ inRanges Ranges.alphabetic c.toNat = true := by
  simp only [isIdentStart, isLetter, Bool.or_eq_true, Bool.and_eq_true, decide_eq_true_eq] at h
  rcases h with ((rfl | rfl) | rfl) | halpha | hletter
  · decide
  · decide
  · decide
  · have hcode := code_of_isAlpha halpha
    omega
  · exact .inr (.inr hletter)

theorem isBlank_of_isIdentStart (h : isIdentStart c = true) : isBlank c = false := by
  by_contra hblank
  have hstart := code_of_isIdentStart h
  rcases code_of_isBlank (by simpa using hblank) with hcode | ⟨b, hb, hhigh, hcode⟩
  · omega
  · rw [not_alphabetic_of_mem_blankSpans hb hcode] at hstart
    simp only [Bool.false_eq_true, and_false, or_false] at hstart
    omega

/-- The code points of the characters that a name may go on with. -/
theorem code_of_isIdentContinue (h : isIdentContinue c = true) :
    33 ≤ c.toNat ∧ c.toNat ≤ 0x7F ∨ 0x80 ≤ c.toNat ∧
      (inRanges Ranges.alphabetic c.toNat = true ∨ inRanges Ranges.numeric c.toNat = true) := by
  simp only [isIdentContinue, isLetterOrNumber, Char.isAlphanum, Bool.or_eq_true, Bool.and_eq_true,
    decide_eq_true_eq] at h
  rcases h with (rfl | rfl) | (halpha | hdigit) | hwide
  · decide
  · decide
  · have hcode := code_of_isAlpha halpha
    omega
  · have hcode := code_of_isDigit hdigit
    omega
  · exact .inr hwide

/-- No name goes on with a blank. -/
theorem isIdentContinue_of_isBlank (h : isBlank c = true) : isIdentContinue c = false := by
  by_contra hcontinue
  have hcode := code_of_isIdentContinue (by simpa using hcontinue)
  rcases code_of_isBlank h with hlow | ⟨b, hb, hhigh, hspan⟩
  · omega
  · rw [not_alphabetic_of_mem_blankSpans hb hspan, not_numeric_of_mem_blankSpans hb hspan] at hcode
    simp only [Bool.false_eq_true, or_self, and_false, or_false] at hcode
    omega

theorem isDigit_of_isIdentStart (h : isIdentStart c = true) : c.isDigit = false := by
  by_contra hdigit
  have hcode := code_of_isDigit (by simpa using hdigit)
  have hstart := code_of_isIdentStart h
  omega

theorem ne_of_isIdentStart (h : isIdentStart c = true) (hd : isIdentStart d = false) : c ≠ d := by
  rintro rfl
  rw [h] at hd
  cases hd

/-- A name ends before what it does not go on with. -/
theorem lexeme_name (hs : isName s = true) (hr : ∀ d ∈ r.head?, isIdentContinue d = false) :
    lexeme jsx operand (s ++ r) = .ok (.ident, ⟨s, r⟩) := by
  match s, hs with
  | c :: s, hs =>
    obtain ⟨hc, hs⟩ := Bool.and_eq_true_iff.mp hs
    have hrun : Lexeme.takeWhile isIdentContinue (s ++ r) = ⟨s, r⟩ :=
      takeWhile_eq_iff.mpr ⟨rfl, List.all_eq_true.mp hs, hr⟩
    have hdot : c ≠ '.' := ne_of_isIdentStart hc (by decide)
    have hdouble : c ≠ '"' := ne_of_isIdentStart hc (by decide)
    have hsingle : c ≠ '\'' := ne_of_isIdentStart hc (by decide)
    have htick : c ≠ '\x60' := ne_of_isIdentStart hc (by decide)
    simp [lexeme, isDigit_of_isIdentStart hc, hdot, hdouble, hsingle, htick, hc, hrun, Scan.precede, Except.map]

/-! ## Numbers -/

/-- Whether a text is read as one number. -/
def isNumeral : List Char → Bool
  | [] => false
  | c :: s => (c.isDigit || (c = '.' && s.head?.any Char.isDigit)) && (number (c :: s)).rest.isEmpty

theorem exists_cons_of_isNumeral (h : isNumeral s = true) : ∃ c r, s = c :: r ∧ (c.isDigit = true ∨ c = '.') := by
  match s, h with
  | c :: r, h =>
    refine ⟨c, r, rfl, ?_⟩
    have hc := (Bool.and_eq_true_iff.mp h).1
    simp only [Bool.or_eq_true, Bool.and_eq_true, decide_eq_true_eq] at hc
    exact hc.imp_right And.left

/-- What follows a number without belonging to it. -/
def EndsNumeral (r : List Char) : Prop := ∀ d ∈ r.head?, ∀ hex last, continuesNumber hex last d = false

/-- Characters that neither a name nor a number goes on with. -/
def stops : List Char := [' ', '\n', '(', ')', '[', ']', '{', '}', '<', '>', ',', ';', ':', '=', '"', '\'']

/-- A text that no name and no number before it goes on with. -/
def Stops (r : List Char) : Prop := ∀ d ∈ r.head?, d ∈ stops

theorem Stops.cons (hc : c ∈ stops) (r : List Char) : Stops (c :: r) := by
  rintro d ⟨⟩
  exact hc

theorem Stops.isIdentContinue (h : Stops r) : ∀ d ∈ r.head?, Lexeme.isIdentContinue d = false := by
  have hall : (stops.all fun d => !Lexeme.isIdentContinue d) = true := by decide +kernel
  intro d hd
  simpa using List.all_eq_true.mp hall d (h d hd)

theorem Stops.endsNumeral (h : Stops r) : EndsNumeral r := by
  have hall : (stops.all fun d => !d.isAlphanum && d != '_' && d != '.' && d != '+' && d != '-') = true := by decide
  intro d hd hex last
  have hd := List.all_eq_true.mp hall d (h d hd)
  simp only [Bool.and_eq_true, Bool.not_eq_true', bne_iff_ne] at hd
  obtain ⟨⟨⟨⟨halnum, hlow⟩, hdot⟩, hplus⟩, hminus⟩ := hd
  simp [continuesNumber, halnum, hlow, hdot, hplus, hminus]

theorem numberRest_append {hex : Bool} {last : Char} (h : (numberRest hex last s).rest = []) (hr : EndsNumeral r) :
    numberRest hex last (s ++ r) = ⟨s, r⟩ := by
  induction s generalizing last with
  | nil => exact numberRest_of_not fun d hd => hr d hd hex last
  | cons c s ih =>
    rw [numberRest_cons] at h
    rw [List.cons_append, numberRest_cons]
    cases hc : continuesNumber hex last c with
    | false =>
      rw [hc] at h
      cases h
    | true =>
      rw [hc] at h
      rw [if_pos rfl, ih h]

/-- Whether a text goes on with the letter of a hexadecimal number is told from its own characters. -/
theorem any_head?_endsNumeral (hr : EndsNumeral r) (hc : c.isAlphanum = true) :
    (s ++ r).head?.any (· = c) = s.head?.any (· = c) := by
  cases s with
  | cons d s => rfl
  | nil =>
    cases hhead : r.head? with
    | none => simp [hhead]
    | some d =>
      have hd := hr d hhead true 'e'
      have hne : d ≠ c := by
        rintro rfl
        simp [continuesNumber, hc] at hd
      simp [hhead, hne]

/-- A number ends before what does not belong to it. -/
theorem lexeme_numeral (hs : isNumeral s = true) (hr : EndsNumeral r) :
    lexeme jsx operand (s ++ r) = .ok (.number, ⟨s, r⟩) := by
  match s, hs with
  | c :: s, hs =>
    obtain ⟨hc, hend⟩ := Bool.and_eq_true_iff.mp hs
    have hdouble : c ≠ '"' := by
      rintro rfl
      simp at hc
    have hsingle : c ≠ '\'' := by
      rintro rfl
      simp at hc
    have htick : c ≠ '\x60' := by
      rintro rfl
      simp at hc
    have hbegin : (c.isDigit || (decide (c = '.') && (s ++ r).head?.any Char.isDigit)) = true := by
      cases s with
      | nil =>
        have hdigit : c.isDigit = true := by simpa using hc
        rw [hdigit, Bool.true_or]
      | cons d s => exact hc
    have hnumber : number (c :: (s ++ r)) = ⟨c :: s, r⟩ := by
      rw [number_cons, List.isEmpty_iff] at hend
      rw [number_cons, any_head?_endsNumeral hr rfl, any_head?_endsNumeral hr rfl, numberRest_append hend hr]
    rw [List.cons_append, lexeme]
    dsimp only
    rw [if_neg (by simp [hdouble, hsingle]), if_neg htick, if_pos hbegin, hnumber]

/-! ## Strings -/

/-- A character of a string literal in double quotes, behind a backslash where it needs one. -/
def escapeChar (c : Char) : List Char :=
  if c = '\n' then ['\\', 'n'] else if c = '\r' then ['\\', 'r'] else if c = '\\' ∨ c = '"' then ['\\', c] else [c]

/-- A string literal for a text. -/
def quoted (s : List Char) : List Char := '"' :: (s.flatMap escapeChar ++ ['"'])

/-- What stands for each character of a string literal is read on its own, so all of them are. -/
theorem stringRest_flatMap {quote : Char} (hquote : quote ≠ '\\' ∧ quote ≠ '\n') {e : Char → List Char}
    (he : ∀ c r, stringRest quote (e c ++ r) = (stringRest quote r).precede (e c)) (s r : List Char) :
    stringRest quote (s.flatMap e ++ quote :: r) = .ok ⟨s.flatMap e ++ [quote], r⟩ := by
  induction s with
  | nil =>
    rw [List.flatMap_nil, List.nil_append, stringRest, if_neg hquote.2, if_pos rfl, List.nil_append]
    · exact fun heq => absurd heq hquote.1
    · exact fun _ _ heq => absurd heq hquote.1
  | cons c s ih =>
    rw [List.flatMap_cons, List.append_assoc, he, ih, Scan.precede, ← List.append_assoc]

/-- Characters that stand for themselves. -/
theorem stringRest_append {quote : Char} (h : ∀ c ∈ s, c ≠ '\n' ∧ c ≠ quote ∧ c ≠ '\\') (r : List Char) :
    stringRest quote (s ++ r) = (stringRest quote r).precede s := by
  induction s with
  | nil =>
    rw [List.nil_append]
    cases stringRest quote r <;> rfl
  | cons c s ih =>
    obtain ⟨⟨hbreak, hquote, hback⟩, hs⟩ := List.forall_mem_cons.mp h
    rw [List.cons_append, stringRest, if_neg hbreak, if_neg hquote, ih hs, Scan.precede_precede]
    · rfl
    · exact fun heq => absurd heq hback
    · exact fun _ _ heq => absurd heq hback

theorem stringRest_escapeChar (c : Char) (r : List Char) :
    stringRest '"' (escapeChar c ++ r) = (stringRest '"' r).precede (escapeChar c) := by
  rw [escapeChar]
  split
  · rfl
  · split
    · rfl
    · split
      · rfl
      · rename_i hbreak _ hplain
        obtain ⟨hback, hquote⟩ := not_or.mp hplain
        exact stringRest_append (List.forall_mem_singleton.mpr ⟨hbreak, hquote, hback⟩) r

theorem stringRest_escaped (s r : List Char) :
    stringRest '"' (s.flatMap escapeChar ++ '"' :: r) = .ok ⟨s.flatMap escapeChar ++ ['"'], r⟩ :=
  stringRest_flatMap (by decide) stringRest_escapeChar s r

theorem lexeme_doubleQuoted (h : stringRest '"' (s ++ r) = .ok ⟨s, r⟩) :
    lexeme jsx operand ('"' :: (s ++ r)) = .ok (.string, ⟨'"' :: s, r⟩) := by
  rw [lexeme]
  dsimp only
  rw [if_pos (by decide), h]
  rfl

/-- A string literal is read as one. -/
theorem lexeme_quoted (s r : List Char) : lexeme jsx operand (quoted s ++ r) = .ok (.string, ⟨quoted s, r⟩) := by
  refine lexeme_doubleQuoted ?_
  rw [List.append_assoc]
  exact stringRest_escaped s r

theorem unescape_flatMap {e : Char → List Char} (he : ∀ c ∈ s, ∀ r, Token.unescape (e c ++ r) = c :: Token.unescape r) :
    Token.unescape (s.flatMap e) = s := by
  induction s with
  | nil => rfl
  | cons c s ih =>
    obtain ⟨hc, hs⟩ := List.forall_mem_cons.mp he
    rw [List.flatMap_cons, hc, ih hs]

theorem unescape_plain (hback : c ≠ '\\') (r : List Char) : Token.unescape (c :: r) = c :: Token.unescape r := by
  rw [Token.unescape]
  · exact fun heq => absurd heq hback
  · exact fun _ _ heq => absurd heq hback

theorem unescape_escapeChar (c : Char) (r : List Char) :
    Token.unescape (escapeChar c ++ r) = c :: Token.unescape r := by
  rw [escapeChar]
  split
  · rename_i hbreak
    rw [hbreak]
    simp [Token.unescape]
  · split
    · rename_i hreturn
      rw [hreturn]
      simp [Token.unescape]
    · split
      · rename_i hmark
        rcases hmark with rfl | rfl <;> simp [Token.unescape]
      · rename_i hplain
        exact unescape_plain (not_or.mp hplain).1 r

/-- A string literal stands for its text. -/
theorem unescape_escaped (s : List Char) : Token.unescape (s.flatMap escapeChar) = s :=
  unescape_flatMap fun c _ => unescape_escapeChar c

/-! ## Punctuators -/

/-- Punctuators of one character. -/
def marks : List Char := ['(', ')', '[', ']', '{', '}', '<', '>', ',', ';', ':', '?', '|', '&', '=', '-', '.']

/-- No punctuator of several characters begins with the two characters. -/
def standsAlone (c : Char) (d : Option Char) : Bool :=
  punctuators.all fun p => !(p.head? = some c && p.tail.head? = d)

theorem punctuator_of_standsAlone (halone : standsAlone c r.head? = true) : punctuator (c :: r) = ⟨[c], r⟩ := by
  have hfind : punctuators.find? (fun p => p.isPrefixOf (c :: r)) = none := by
    rw [List.find?_eq_none]
    intro p hp hfront
    obtain ⟨t, ht⟩ := List.isPrefixOf_iff_prefix.mp hfront
    have hlong : (punctuators.all fun p => decide (2 ≤ p.length)) = true := by decide
    have hlength := of_decide_eq_true (List.all_eq_true.mp hlong p hp)
    match p, hlength with
    | a :: b :: p, _ =>
      obtain ⟨rfl, hr⟩ := List.cons.inj ht
      have hapart := List.all_eq_true.mp halone _ hp
      simp [← hr] at hapart
  rw [punctuator, hfind]
  rfl

/-- A mark that is part of no longer token is read alone. -/
theorem lexeme_mark (hc : c ∈ marks) (halone : standsAlone c r.head? = true)
    (hdot : c = '.' → r.head?.any Char.isDigit = false) (hangle : c = '<' → operand = false) :
    lexeme jsx operand (c :: r) = .ok (.punct, ⟨[c], r⟩) := by
  have hall : (marks.all fun c => c != '"' && c != '\'' && c != '\x60' && c != '/' && !c.isDigit && !isIdentStart c) =
      true := by
    decide +kernel
  have hplain := List.all_eq_true.mp hall c hc
  simp only [Bool.and_eq_true, bne_iff_ne, Bool.not_eq_true'] at hplain
  obtain ⟨⟨⟨⟨⟨hdouble, hsingle⟩, htick⟩, hslash⟩, hdigit⟩, hname⟩ := hplain
  have hnumber : ¬ ((c.isDigit || (decide (c = '.') && r.head?.any Char.isDigit)) = true) := by
    simpa [hdigit] using hdot
  have helement : ¬ ((decide (c = '<') && jsx && operand && elementFollows r) = true) := by
    simp only [Bool.and_eq_true, decide_eq_true_eq]
    rintro ⟨⟨⟨hc, -⟩, hoperand⟩, -⟩
    rw [hangle hc] at hoperand
    cases hoperand
  rw [lexeme]
  dsimp only
  rw [if_neg (by simp [hdouble, hsingle]), if_neg htick, if_neg hnumber, if_neg (by simp [hname]),
    if_neg (by simp [hslash]), if_neg helement, punctuator_of_standsAlone halone]

end Lexeme

/-- A word that is spelled out, with a blank before it or with none. -/
structure Word where
  spaced : Bool
  kind : TokenKind
  text : String

namespace Word

/-- What stands before a word. -/
def gap (w : Word) : List Char := if w.spaced then [' '] else []

/-- A word with what stands before it. -/
def chars (w : Word) : List Char := w.gap ++ w.text.toList

/-- The text of some words. -/
def spell (ws : List Word) : List Char := ws.flatMap chars

/-- The token of a word that is spelled from a position on. -/
def token (w : Word) (p : Position) : Token := ⟨w.kind, w.text, String.ofList w.gap, p.after w.gap, none⟩

/-- The tokens of words that are spelled from a position on. -/
def tokensAt (p : Position) : List Word → List Token
  | [] => []
  | w :: ws => w.token p :: tokensAt (p.after w.chars) ws

/-- Whether an operand may begin after a word. -/
def operandMayFollow (w : Word) : Bool := Token.operandMayFollow (some (w.token .start))

variable {w : Word} {ws vs : List Word} {p : Position} {r : List Char}

@[simp]
theorem spell_cons : spell (w :: ws) = w.chars ++ spell ws := List.flatMap_cons

@[simp]
theorem spell_append : spell (ws ++ vs) = spell ws ++ spell vs := List.flatMap_append

@[simp]
theorem tokensAt_cons : tokensAt p (w :: ws) = w.token p :: tokensAt (p.after w.chars) ws := rfl

/-- The words can be read one after the other before a text, at a place where an operand may begin or not. -/
inductive Readable : (operand : Bool) → List Word → List Char → Prop where
  | nil (operand : Bool) (r : List Char) : Readable operand [] r
  | cons {operand : Bool} {w : Word} {ws : List Word} {r : List Char} {c : Char} {s : List Char}
    (htext : w.text.toList = c :: s) (hbegin : isBlank c = false ∧ c ≠ '/')
    (hword : ∀ jsx, lexeme jsx operand (w.text.toList ++ (spell ws ++ r)) = .ok (w.kind, ⟨w.text.toList, spell ws ++ r⟩))
    (hrest : Readable w.operandMayFollow ws r) : Readable operand (w :: ws) r

/-- **Words that can be read are the tokens of their text.** -/
theorem Readable.steps {operand : Bool} (h : Readable operand ws r) (jsx : Bool) (last : Option Token)
    (hlast : Token.operandMayFollow last = operand) (p : Position) :
    ∃ z, Steps jsx ⟨last, p, spell ws ++ r⟩ (tokensAt p ws) z ∧ z.rest = r := by
  induction h generalizing last p with
  | nil operand r => exact ⟨_, .refl _, rfl⟩
  | @cons operand w ws r c s htext hbegin hword _ ih =>
    obtain ⟨z, hsteps, hz⟩ := ih (some (w.token p)) rfl (p.after w.chars)
    refine ⟨z, .head (y := ⟨some (w.token p), p.after w.chars, spell ws ++ r⟩) ⟨⟨none, ?_, rfl⟩, ?_, ?_, ?_, rfl, ?_⟩ hsteps, hz⟩
    · have hstop : Gap.scan (w.text.toList ++ (spell ws ++ r)) = .ok ⟨[], none, w.text.toList ++ (spell ws ++ r)⟩ := by
        rw [htext, List.cons_append, Gap.scan_eq_nil_iff]
        exact ⟨hbegin.1, fun hslash => absurd hslash hbegin.2⟩
      rw [spell_cons, chars, List.append_assoc, List.append_assoc]
      simp only [token, String.toList_ofList]
      rw [gap]
      cases w.spaced with
      | true =>
        rw [if_pos rfl, List.singleton_append, Gap.scan, if_pos (by decide), hstop] <;> simp [Gap.precede]
      | false => exact hstop
    · simp [token]
    · simp [token, htext]
    · simp only [token, hlast]
      exact hword jsx
    · simp only [token, chars, Position.after_append]

/-- A text of words is tokenized in either way. -/
theorem tokenize_spell (h : Readable true ws []) (hmark : ¬ ['#', '!'] <+: spell ws) :
    tokenize (String.ofList (spell ws)) = .ok (tokensAt .start ws) := by
  have hrun (jsx : Bool) : run jsx (spell ws) = .ok (tokensAt .start ws) := by
    obtain ⟨z, hsteps, hz⟩ := h.steps jsx none rfl .start
    rw [List.append_nil] at hsteps
    refine run_eq_ok_iff_steps.mpr ⟨z, ?_, [], none, by rw [hz]; rfl⟩
    rw [Place.first_of_not_mark hmark]
    exact hsteps
  rw [tokenize, String.toList_ofList, tokens_eq_run, hrun]

end Word

end AppBundler
