import AppBundler.Proofs.Source.Numerals
import AppBundler.Proofs.Source.Tree.Objects
import AppBundler.Schema.Extract
/-!
# Numbers as defaults

A handler whose parameter is a pattern gives a default to what it binds. A number there, or a number behind a minus sign,
is the default value of the input. The sign of a number that is kept as text gets lost.
-/

namespace AppBundler

open Lexeme Token TypeExpr

variable {c : Cursor} {n : Nat} {e : Expr} {ts more : List Token} {text : String}

/-! ## The values of literals -/

/-- The tokens before a closing brace are read as an expression. -/
def IsRead (ts : List Token) (e : Expr) : Prop :=
  ∀ {n more c}, c.Shows (ts ++ ofMark " " "\x7d" :: more) →
    ∃ d, Expr.parse (.ofDepth (n + 1)) c = .ok (e, d) ∧ d.Shows (ofMark " " "\x7d" :: more)

/-- A number is read as its value. -/
theorem isRead_number (text : String) : IsRead [ofNumeral " " text] (.literal (Literal.number text false)) := by
  intro n more c hc
  obtain ⟨p, hpeek⟩ := hc.peek?
  refine ⟨c.next, Expr.parse_of_parsePrimary (.inr (.inr rfl)) ?_ hc.next, hc.next⟩
  simp [Expr.parsePrimary, hpeek, ofNumeral]

/-- A number behind a minus sign is read as its negated value. -/
theorem isRead_negative (text : String) :
    IsRead [ofMark " " "-", ofNumeral "" text] (.literal (Literal.number text true)) := by
  intro n more c hc
  have hc : c.Shows (ofMark " " "-" :: ofNumeral "" text :: ofMark " " "\x7d" :: more) := hc
  obtain ⟨p, hpeek⟩ := hc.peek?
  have hkind : c.nthIsKind 1 .number = true := hc.nthIsKind 1 .number
  have htext : ((c.peekAt? 1).elim "" fun t => t.text) = text := by
    obtain ⟨u, r, hahead, hu, hnext⟩ := hc.uncons
    obtain ⟨v, r', hr, hv, -⟩ := hnext.uncons
    have hsecond : c.peekAt? 1 = some v := by
      rw [Cursor.next, hahead] at hr
      obtain rfl : r = v :: r' := hr
      rw [Cursor.peekAt?, hahead]
      rfl
    rw [hsecond]
    exact (Token.unplaced_eq_iff.mp hv).2.1
  refine ⟨c.next.next, Expr.parse_of_parsePrimary (.inr (.inr rfl)) ?_ hc.next.next, hc.next.next⟩
  simp [Expr.parsePrimary, hpeek, ofMark, Expr.parsePunct, hkind, htext]

/-! ## The handler -/

/-- A handler that gives a default to what its pattern binds. -/
def withDefault (value : String) : String := "export function handler(\x7b k = " ++ value ++ " \x7d) \x7b\x7d"

/-- The tokens of the pattern before the default. -/
def patternHead : List Token := [ofMark "" "\x7b", ofWord " " "k", ofMark " " "="]

/-- The tokens of the pattern behind the default, with the parenthesis. -/
def patternEnd : List Token := [ofMark " " "\x7d", ofMark "" ")"]

/-- The input that the pattern binds. -/
def inputWithDefault (value : Json) : Input := ⟨"k", .any, true, none, none, some value⟩

/-- The parameter is read with the default in its pattern. -/
theorem parseList_default {value : Json} (hts : IsRead ts (.literal value))
    (hc : c.Shows (ofMark "" "(" :: ((patternHead ++ (ts ++ patternEnd)) ++ more))) :
    ∃ d, Param.parseList (.ofDepth (n + 2)) c =
      .ok ([⟨.object [⟨"k", true, some value⟩], false, none, false⟩], d) ∧ d.Shows more := by
  have hopen : c.next.Shows (ofMark "" "\x7b" :: ofWord " " "k" :: ofMark " " "=" :: (ts ++ (patternEnd ++ more))) := by
    simpa [patternHead] using hc.next
  have hkey := hopen.next
  have hequals := hkey.next
  have hvalueNext : c.next.next.next.next.Shows (ts ++ ofMark " " "\x7d" :: ofMark "" ")" :: more) := hequals.next
  obtain ⟨d, hvalue, hd⟩ := hts (n := n) hvalueNext
  have hmodifiers : Param.skipModifiers c.next.before c.next.ahead = c.next := by
    obtain ⟨u, r, hahead, hu, -⟩ := hopen.uncons
    have htext : u.text = "\x7b" := (Token.unplaced_eq_iff.mp hu).2.1
    generalize c.next = c at hahead ⊢
    obtain ⟨before, ahead⟩ := c
    obtain rfl : ahead = u :: r := hahead
    simp [Param.skipModifiers, Param.modifiers, htext]
  have hpropertyKey : c.next.next.propertyKey = .ok (some "k", c.next.next.next) := by
    obtain ⟨p, hpeek⟩ := hkey.peek?
    simp [Cursor.propertyKey, hpeek, ofWord]
  have hinit : (Inner.ofDepth (n + 2)).initializer? c.next.next.next = .ok (some (.literal value), d) := by
    have hexpr : (Inner.ofDepth (n + 2)).expr c.next.next.next.next = .ok (.literal value, d) := hvalue
    simp [Inner.initializer?, hequals.eat?, hexpr, Except.map]
  have hprops : Pattern.parseProps (.ofDepth (n + 2)) (n + 2) c.next.next = .ok ([⟨"k", true, some value⟩], d) := by
    simp [Pattern.parseProps, hkey.nextIs, hkey.atEnd, hkey.eat?_eq_none, hpropertyKey, Pattern.skipTarget,
      hequals.eat?_eq_none, hinit, hd.eat?_eq_none, Expr.literal?, bind, Except.bind]
  have hpattern : Pattern.parse (.ofDepth (n + 2)) c.next = .ok (.object [⟨"k", true, some value⟩], d.next) := by
    simp [Pattern.parse, hopen.eat?_eq_none, hopen.nextIs, Pattern.parseObject, hopen.expect, rounds_ofDepth, hprops, hd.expect,
      bind, Except.bind]
  have hclose := hd.next
  have hmark : d.next.nextIs "?" = false := by simp [hclose.nextIs]
  have hparam : Param.parse (.ofDepth (n + 2)) c.next =
      .ok (⟨.object [⟨"k", true, some value⟩], false, none, false⟩, d.next) := by
    simp [Param.parse, hmodifiers, hpattern, hmark, hclose.skip_eq_self, annotation?_eq_none hclose, hclose.eat?_eq_none, bind,
      Except.bind]
  have hrest : Param.parseRest (.ofDepth (n + 2)) (n + 2) c.next =
      .ok ([⟨.object [⟨"k", true, some value⟩], false, none, false⟩], d.next) := by
    simp [Param.parseRest, hopen.nextIs, hopen.atEnd, hparam, Param.isThis, hclose.eat?_eq_none, bind, Except.bind]
  refine ⟨d.next.next, ?_, hclose.next⟩
  simp [Param.parseList, hc.expect, rounds_ofDepth, hrest, hclose.expect, bind, Except.bind]

/-- The tokens of the handler. -/
def defaultTokens (ts : List Token) : List Token :=
  handlerWords "" ++ ofMark "" "(" :: ((patternHead ++ (ts ++ patternEnd)) ++ emptyBody)

/-- The function that the handler is. -/
def handlerWithDefault (value : Json) : FunctionDecl :=
  ⟨some "handler", ⟨[⟨.object [⟨"k", true, some value⟩], false, none, false⟩], false⟩, .named⟩

/-- The handler is read when the default is laid out behind a blank. -/
theorem ofSource_withDefault {value : Json} (hts : IsRead ts (.literal value)) (hspell : spell ts = ' ' :: text.toList)
    (hlaid : ∀ us r, Stops (spell us ++ r) → (∀ operand, Laid operand us r) → ∀ operand, Laid operand (ts ++ us) r) :
    Module.ofSource (withDefault text) = .ok ⟨[.function (handlerWithDefault value)]⟩ := by
  have hend : ∀ operand, Laid operand (patternEnd ++ emptyBody) [] :=
    .bracket " " "\x7d" (by decide) rfl (.bracket "" ")" (by decide) rfl (.bracket " " "\x7b" (by decide) rfl
      (.bracket "" "\x7d" (by decide) rfl fun operand => .nil operand [])))
  have hvalue := hlaid _ _ (stops_of_spaced rfl) hend
  have hspaced : Import.StandsApart (spell (ts ++ (patternEnd ++ emptyBody)) ++ []) := by
    rw [spell_append, hspell]
    rintro d ⟨⟩
    decide
  have hequals := Laid.sign " " "=" (by decide) rfl hspaced hvalue
  have hkey := Laid.plainWord " " "k" (by decide) (by decide +kernel) (stops_of_spaced rfl) hequals
  have hopen := Laid.bracket "" "(" (by decide) rfl (Laid.bracket "" "\x7b" (by decide) rfl hkey)
  have hname := Laid.plainWord " " "handler" (by decide) (by decide +kernel) (stops_of_tight rfl (by decide)) hopen
  have hfunction := Laid.plainWord " " "function" (by decide) (by decide +kernel) (stops_of_spaced rfl) hname
  have hlaid := Laid.plainWord "" "export" (by decide) (by decide +kernel) (stops_of_spaced rfl) hfunction true
  have hsplit : defaultTokens ts = ofWord "" "export" :: ofWord " " "function" :: ofWord " " "handler" :: ofMark "" "(" ::
      ofMark "" "\x7b" :: ofWord " " "k" :: ofMark " " "=" :: (ts ++ (patternEnd ++ emptyBody)) := by
    simp [defaultTokens, handlerWords, patternHead]
  rw [← hsplit] at hlaid
  have htext : (withDefault text).toList = spell (defaultTokens ts) ++ [] := by
    have hfront : "export function handler(\x7b k = ".toList =
        spell (handlerWords "" ++ ofMark "" "(" :: patternHead) ++ [' '] := by decide
    have hback : " \x7d) \x7b\x7d".toList = spell (patternEnd ++ emptyBody) := by decide
    refine (toList_between _ text _).trans ?_
    rw [hfront, hback]
    simp only [defaultTokens, spell_append, spell_cons, hspell, List.append_assoc, List.cons_append, List.nil_append,
      List.append_nil]
  have hfirst : (spell (defaultTokens ts) ++ []).head? = some 'e' := rfl
  obtain ⟨all, htokens, hall⟩ := hlaid.tokenize (by rw [hfirst]; decide) (by simp [IsBlankText])
  rw [← htext, String.ofList_toList] at htokens
  refine ofSource_of_shows htokens hall fun c hc => ?_
  refine parseAll_handlerWords (fun c hc => ?_) (by simp [defaultTokens, handlerWords]) hc
  exact parseList_default hts hc

/-- The default is that of the input. -/
theorem inputsOfSource_withDefault {value : Json} (h : Module.ofSource (withDefault text) =
    .ok ⟨[.function (handlerWithDefault value)]⟩) (strict : Bool) :
    ScriptSchema.inputsOfSource (withDefault text) strict = .ok (some [inputWithDefault value]) := by
  rw [ScriptSchema.inputsOfSource, Extract.fromSource, Extract.moduleOf?, h]
  rfl

/-- A number is a default with its value. -/
theorem inputsOfSource_number (h : isNumeral text.toList = true) (strict : Bool) :
    ScriptSchema.inputsOfSource (withDefault text) strict = .ok (some [inputWithDefault (Literal.number text false)]) := by
  refine inputsOfSource_withDefault (ofSource_withDefault (isRead_number text) (by simp [ofNumeral]) ?_) strict
  intro us r hstops hus
  exact .numeral " " text (by decide) h hstops.endsNumeral hus

/-- A number behind a minus sign is a default with its negated value. -/
theorem inputsOfSource_negative (h : isNumeral text.toList = true) (strict : Bool) :
    ScriptSchema.inputsOfSource (withDefault ("-" ++ text)) strict =
      .ok (some [inputWithDefault (Literal.number text true)]) := by
  have hminus : "-".toList = ['-'] := by decide
  refine inputsOfSource_withDefault (ofSource_withDefault (isRead_negative text) (by simp [ofNumeral, ofMark, hminus]) ?_) strict
  intro us r hstops hus
  exact .negative " " text (by decide) h hstops.endsNumeral hus

/-- **The default of a number and of its negative**: both are read, and the sign is lost where the text is kept as it
stands, and there alone. -/
theorem numberDefaults_signed {source : String} {ts : List Token} {t : Token} (htokens : tokenize source = .ok ts)
    (ht : t ∈ ts) (hkind : t.kind = .number) :
    ∃ value negated, Literal.SignedValues t.text value negated ∧ ∀ strict,
      ScriptSchema.inputsOfSource (withDefault t.text) strict = .ok (some [inputWithDefault value]) ∧
      ScriptSchema.inputsOfSource (withDefault ("-" ++ t.text)) strict = .ok (some [inputWithDefault negated]) := by
  have hnumeral := isNumeral_of_mem_tokenize htokens ht hkind
  refine ⟨_, _, Literal.number_signed hnumeral, fun strict => ?_⟩
  exact ⟨inputsOfSource_number hnumeral strict, inputsOfSource_negative hnumeral strict⟩

/-- Two numbers, with a separator and in another radix. -/
def twoNumbers : String := "1_0n 0x_fF"

/-- The tokens of the two numbers. -/
def twoNumerals : List Token :=
  [⟨.number, "1_0n", "", ⟨0, 1, 1⟩, none⟩, ⟨.number, "0x_fF", " ", ⟨5, 1, 6⟩, none⟩]

/-- Both numbers are defaults, and the second one is an integer. -/
theorem numberDefaults_signed_radix :
    tokenize twoNumbers = .ok twoNumerals ∧ (∀ t ∈ twoNumerals, t.kind = .number) ∧ Literal.Denotes "0x_fF" 255 ∧
      ∀ t ∈ twoNumerals, ∃ value negated, Literal.SignedValues t.text value negated ∧ ∀ strict,
        ScriptSchema.inputsOfSource (withDefault t.text) strict = .ok (some [inputWithDefault value]) ∧
        ScriptSchema.inputsOfSource (withDefault ("-" ++ t.text)) strict = .ok (some [inputWithDefault negated]) := by
  have htokens : tokenize twoNumbers = .ok twoNumerals := by decide +kernel
  have hkind : ∀ t ∈ twoNumerals, t.kind = .number := by decide
  refine ⟨htokens, hkind, Literal.denotes_iff.mpr (by decide), fun t ht => ?_⟩
  exact numberDefaults_signed htokens ht (hkind t ht)

/-- **A large integer behind a minus sign loses it**: it spells no integer, so it is kept as text, without the sign. -/
theorem sign_lost_before_bigint : isNumeral "10n".toList = true ∧ (∀ n, ¬ Literal.Denotes "10n" n) ∧
    ScriptSchema.inputsOfSource (withDefault "10n") true = .ok (some [inputWithDefault (.string "10n")]) ∧
    ScriptSchema.inputsOfSource (withDefault "-10n") true = .ok (some [inputWithDefault (.string "10n")]) := by
  have hnumeral : isNumeral "10n".toList = true := by decide
  have hvalue : Literal.number "10n" false = .string "10n" := rfl
  have hnegated : Literal.number "10n" true = .string "10n" := rfl
  have hplain := inputsOfSource_number hnumeral true
  have hnegative := inputsOfSource_negative hnumeral true
  rw [hvalue] at hplain
  rw [hnegated] at hnegative
  refine ⟨hnumeral, fun n hn => ?_, hplain, hnegative⟩
  have hdigits := Literal.denotes_iff.mp hn
  cases hdigits

end AppBundler
