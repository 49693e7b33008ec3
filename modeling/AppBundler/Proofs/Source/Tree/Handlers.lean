import AppBundler.Proofs.Source.Braces
import AppBundler.Proofs.Source.Tree.Signatures
import AppBundler.Source.Tree.Items
/-!
# A handler and the type of its parameter

A script exports a handler with one parameter, and declares the name `P` or does not. Each of the declarations is read
from its tokens, wherever they stand, around what is read as a type or as members.
-/

namespace AppBundler

/-- A word behind a gap, wherever it stands. -/
def Token.ofWord (gap text : String) : Token := ⟨.ident, text, gap, .start, none⟩

/-- A punctuator behind a gap, wherever it stands. -/
def Token.ofMark (gap text : String) : Token := ⟨.punct, text, gap, .start, none⟩

namespace Token

variable (gap text : String)

@[simp] theorem ofWord_kind : (ofWord gap text).kind = .ident := rfl

@[simp] theorem ofWord_text : (ofWord gap text).text = text := rfl

@[simp] theorem ofMark_kind : (ofMark gap text).kind = .punct := rfl

@[simp] theorem isIdent_ofWord (name : String) : (ofWord gap text).isIdent name = decide (text = name) := rfl

@[simp] theorem isPunct_ofWord (name : String) : (ofWord gap text).isPunct name = false := by
  simp [isPunct]

@[simp] theorem isIdent_ofMark (name : String) : (ofMark gap text).isIdent name = false := by
  simp [isIdent]

@[simp] theorem isPunct_ofMark (name : String) : (ofMark gap text).isPunct name = decide (text = name) := rfl

end Token

open Token TypeExpr

/-- The tokens of an exported handler up to the type of its parameter. -/
def handlerHead (gap : String) : List Token :=
  [ofWord gap "export", ofWord " " "function", ofWord " " "handler", ofMark "" "(", ofWord "" "i", ofMark "" ":"]

/-- The tokens behind the type. -/
def handlerEnd : List Token := [ofMark "" ")", ofMark " " "\x7b", ofMark "" "\x7d"]

/-- The handler with a type for its parameter. -/
def handlerOf (t : TypeExpr) : FunctionDecl := ⟨some "handler", ⟨[⟨.ident "i", false, some t, false⟩], false⟩, .named⟩

variable {c : Cursor} {n k : Nat} {gap : String} {t : TypeExpr} {ts more : List Token} {next : Token}

/-- A type in an annotation needs one level less. -/
theorem annotation?_shows (ht : Denotes ts next t) (hn : (ts ++ next :: more).length ≤ n)
    (hc : c.Shows (ofMark gap ":" :: (ts ++ next :: more))) :
    ∃ d, (Inner.ofDepth (n + 1)).annotation? c = .ok (some t, d) ∧ d.Shows (next :: more) := by
  obtain ⟨d, htype, hd⟩ := ht hn hc.next
  have htype : (Inner.ofDepth (n + 1)).type c.next = .ok (t, d) := htype
  exact ⟨d, by simp [Inner.annotation?, hc.eat?, htype, Except.map], hd⟩

theorem annotation?_eq_none {inner : Inner} (hc : c.Shows (next :: more)) (hnext : next.isPunct ":" = false) :
    inner.annotation? c = .ok (none, c) := by
  rw [Inner.annotation?, hc.eat?_eq_none hnext]

/-- A type with its colon is read as the rest of a property. -/
theorem readsAs_annotation (ht : Denotes ts next t) : ReadsAs (ofMark gap ":" :: ts) next (some t) false := by
  intro n more c hn hc
  obtain ⟨n, rfl⟩ := Nat.exists_eq_succ_of_ne_zero (Nat.ne_of_gt (Nat.zero_lt_of_lt hn))
  obtain ⟨d, htype, hd⟩ := annotation?_shows ht (Nat.le_of_succ_le_succ hn) hc
  have hc : c.Shows (ofMark gap ":" :: (ts ++ next :: more)) := hc
  exact ⟨d, by simp [memberType, hc.nextIs, htype, bind, Except.bind], hd⟩

/-- Parentheses and a type behind its colon are read as the rest of a method. -/
theorem readsAs_method (ht : Denotes ts next t) :
    ReadsAs (ofMark "" "(" :: ofMark "" ")" :: ofMark "" ":" :: ts) next (some .other) true := by
  intro n more c hn hc
  obtain ⟨n, rfl⟩ := Nat.exists_eq_succ_of_ne_zero (Nat.ne_of_gt (Nat.zero_lt_of_lt hn))
  have hc : c.Shows (ofMark "" "(" :: ofMark "" ")" :: ofMark "" ":" :: (ts ++ next :: more)) := hc
  obtain ⟨d, htype, hd⟩ := annotation?_shows (n := n) ht (by simp at hn ⊢; omega) hc.next.next
  have hrest : Param.parseRest (.ofDepth (n + 1)) (n + 1) c.next = .ok ([], c.next) := by
    simp [Param.parseRest, hc.next.nextIs]
  have hlist : Param.parseList (.ofDepth (n + 1)) c = .ok ([], c.next.next) := by
    simp [Param.parseList, hc.expect, rounds_ofDepth, hrest, hc.next.expect, bind, Except.bind]
  exact ⟨d, by simp [memberType, hc.nextIs, hc.skipAnglesIfNext, hlist, htype, bind, Except.bind], hd⟩

/-- A keyword is read as itself. -/
theorem denotes_keyword {name : String} (hname : name ∈ TypeExpr.keywords) (hnext : EndsType next) :
    Denotes [ofWord gap name] next (.keyword name) := by
  refine denotes_of_parsePrimary hnext (by simp) fun n more c hn hc => ⟨c.next, ?_, hc.next⟩
  obtain ⟨p, hpeek⟩ := hc.peek?
  have hplain : ∀ name ∈ TypeExpr.keywords, parseNamed (.ofDepth n) name c = .ok (.keyword name, c.next) := by
    simp [TypeExpr.keywords, parseNamed]
  simp [parsePrimary, hpeek, hplain name hname]

theorem param_parse (ht : Denotes ts (ofMark "" ")") t) (hn : (ts ++ ofMark "" ")" :: more).length ≤ n)
    (hc : c.Shows (ofWord "" "i" :: ofMark "" ":" :: (ts ++ ofMark "" ")" :: more))) :
    ∃ d, Param.parse (.ofDepth (n + 1)) c = .ok (⟨.ident "i", false, some t, false⟩, d) ∧ d.Shows (ofMark "" ")" :: more) := by
  obtain ⟨d, htype, hd⟩ := annotation?_shows ht hn hc.next
  refine ⟨d, ?_, hd⟩
  have hmodifiers : Param.skipModifiers c.before c.ahead = c := by
    obtain ⟨u, r, hahead, hu, -⟩ := hc.uncons
    have htext : u.text = "i" := (Token.unplaced_eq_iff.mp hu).2.1
    obtain ⟨before, ahead⟩ := c
    obtain rfl : ahead = u :: r := hahead
    simp [Param.skipModifiers, Param.modifiers, htext]
  have hpattern : Pattern.parse (.ofDepth (n + 1)) c = .ok (.ident "i", c.next) := by
    simp [Pattern.parse, hc.eat?_eq_none, hc.nextIs, hc.identifier rfl, bind, Except.bind]
  have hmark : c.next.nextIs "?" = false := by simp [hc.next.nextIs]
  simp [Param.parse, hmodifiers, hpattern, hmark, hc.next.skip_eq_self, htype, hd.eat?_eq_none, bind, Except.bind]

theorem parseList_shows (ht : Denotes ts (ofMark "" ")") t) (hn : (ts ++ ofMark "" ")" :: more).length ≤ n)
    (hc : c.Shows (ofMark "" "(" :: ofWord "" "i" :: ofMark "" ":" :: (ts ++ ofMark "" ")" :: more))) :
    ∃ d, Param.parseList (.ofDepth (n + 1)) c = .ok ([⟨.ident "i", false, some t, false⟩], d) ∧ d.Shows more := by
  obtain ⟨d, hparam, hd⟩ := param_parse ht hn hc.next
  refine ⟨d.next, ?_, hd.next⟩
  have hrest : Param.parseRest (.ofDepth (n + 1)) (n + 1) c.next = .ok ([⟨.ident "i", false, some t, false⟩], d) := by
    simp [Param.parseRest, hc.next.nextIs, hc.next.atEnd, hparam, Param.isThis, hd.eat?_eq_none, bind, Except.bind]
  simp [Param.parseList, hc.expect, rounds_ofDepth, hrest, hd.expect, bind, Except.bind]

/-- The tokens of an exported handler up to its parameters. -/
def handlerWords (gap : String) : List Token := [ofWord gap "export", ofWord " " "function", ofWord " " "handler"]

/-- The tokens of a body that does nothing. -/
def emptyBody : List Token := [ofMark " " "\x7b", ofMark "" "\x7d"]

/-- The handler from its own first word on. -/
theorem functionDecl_parse {params : List Param} {us : List Token}
    (hlist : ∀ c : Cursor, c.Shows (ofMark "" "(" :: (us ++ emptyBody)) →
      ∃ d, Param.parseList (.ofDepth (n + 1)) c = .ok (params, d) ∧ d.Shows emptyBody)
    (hc : c.Shows ((handlerWords gap).tail ++ ofMark "" "(" :: (us ++ emptyBody))) :
    ∃ d, FunctionDecl.parse (.ofDepth (n + 1)) .named c = .ok (⟨some "handler", ⟨params, false⟩, .named⟩, d) ∧
      d.Shows [] := by
  have hname := hc.next
  have hopen := hname.next
  obtain ⟨d, hlist, hd⟩ := hlist _ hopen
  have hempty : closesGroups 0 [] = true := rfl
  obtain ⟨e, hbody, he⟩ := skipGroup_shows hempty rfl rfl hd
  refine ⟨e, ?_, he⟩
  have hidentifier : c.next.identifier? = .ok (some "handler", c.next.next) := by
    have hkind : c.next.nextIsKind .ident = true := hname.nthIsKind 0 .ident
    simp [Cursor.identifier?, hkind, hname.identifier rfl, Except.map]
  have hsig : FunctionSig.parse (.ofDepth (n + 1)) false c.next.next = .ok (⟨params, false⟩, e) := by
    simp [FunctionSig.parse, hopen.skipAnglesIfNext, hlist, annotation?_eq_none hd, FunctionSig.skipBody, hd.nextIs, hbody,
      bind, Except.bind]
  have hasync : c.nextIsIdent "async" = false := by simp [hc.nextIsIdent]
  simp [FunctionDecl.parse, hasync, hc.skipIdent_eq_self, hc.eatIdent?, hname.skip_eq_self, hidentifier, hsig, bind,
    Except.bind]

/-- **The handler is read** up to the end of the text when its parameters are. -/
theorem parseAll_handlerWords {params : List Param} {us : List Token}
    (hlist : ∀ c : Cursor, c.Shows (ofMark "" "(" :: (us ++ emptyBody)) →
      ∃ d, Param.parseList (.ofDepth (n + 1)) c = .ok (params, d) ∧ d.Shows emptyBody)
    (hk : 2 ≤ k) (hc : c.Shows (handlerWords gap ++ ofMark "" "(" :: (us ++ emptyBody))) :
    Item.parseAll (.ofDepth (n + 1)) k c = .ok [.function ⟨some "handler", ⟨params, false⟩, .named⟩] := by
  obtain ⟨k, rfl⟩ : ∃ j, k = j + 2 := ⟨k - 2, by omega⟩
  have hc : c.Shows (ofWord gap "export" :: ((handlerWords gap).tail ++ ofMark "" "(" :: (us ++ emptyBody))) := hc
  have hfunction : c.next.Shows (ofWord " " "function" :: ((handlerWords gap).drop 2 ++
      ofMark "" "(" :: (us ++ emptyBody))) := hc.next
  obtain ⟨d, hdecl, hd⟩ := functionDecl_parse hlist hc.next
  obtain ⟨p, hpeek⟩ := hfunction.peek?
  have hbegins : Item.beginsFunction c.next = true := by simp [Item.beginsFunction, hfunction.nextIsIdent]
  have hdeclaration : Item.parseDeclaration (.ofDepth (n + 1)) .named c.next =
      .ok ([.function ⟨some "handler", ⟨params, false⟩, .named⟩], d) := by
    simp [Item.parseDeclaration, hfunction.skipIdent_eq_self, hpeek, Item.parseWord, hbegins, hdecl, Except.map]
  have hexport : Item.parseExport (.ofDepth (n + 1)) c.next =
      .ok ([.function ⟨some "handler", ⟨params, false⟩, .named⟩], d) := by
    simp [Item.parseExport, hfunction.eatIdent?_eq_none, hfunction.nextIs, hfunction.nextIsIdent, hdeclaration]
  have hpoint : c.nthIs 1 "." = false := hc.nthIs 1 "."
  have hend : d.atEnd = true := by
    have hnil : d.ahead = [] := List.map_eq_nil_iff.mp hd
    rw [Cursor.atEnd, hnil, List.isEmpty_nil]
  simp [Item.parseAll, hc.atEnd, hc.eat?_eq_none, Item.parse, hc.nextIsIdent, hpoint, hexport, hend, bind, Except.bind]

/-- The handler is read with the type of its parameter. -/
theorem parseAll_handler (ht : Denotes ts (ofMark "" ")") t)
    (hn : (handlerHead gap ++ (ts ++ handlerEnd)).length ≤ n) (hk : n ≤ k)
    (hc : c.Shows (handlerHead gap ++ (ts ++ handlerEnd))) :
    Item.parseAll (.ofDepth (n + 1)) k c = .ok [.function (handlerOf t)] := by
  have hlength : (handlerHead gap ++ (ts ++ handlerEnd)).length = (ts ++ handlerEnd).length + 6 := by
    rw [List.length_append, Nat.add_comm]
    rfl
  have hsplit : handlerHead gap ++ (ts ++ handlerEnd) = handlerWords gap ++
      ofMark "" "(" :: ((ofWord "" "i" :: ofMark "" ":" :: (ts ++ [ofMark "" ")"])) ++ emptyBody) := by
    simp [handlerHead, handlerWords, handlerEnd, emptyBody]
  rw [hsplit] at hc
  refine parseAll_handlerWords (fun c hc => ?_) (by omega) hc
  have hleft : (ts ++ ofMark "" ")" :: emptyBody).length ≤ n := by
    change (ts ++ handlerEnd).length ≤ n
    omega
  refine parseList_shows ht hleft ?_
  simpa [emptyBody] using hc

/-! ## Declarations of the type -/

/-- The tokens of an alias up to its type. -/
def aliasHead : List Token := [ofWord "" "type", ofWord " " "P", ofMark " " "="]

/-- The tokens of an interface up to its members. -/
def interfaceHead : List Token := [ofWord "" "interface", ofWord " " "P"]

/-- A name ends where no point follows. -/
theorem nameParts_shows (hc : c.Shows (next :: more)) (hnext : next.isPunct "." = false) :
    Cursor.nameParts c.before c.ahead = ("", c) := by
  obtain ⟨u, r, hahead, hu, -⟩ := hc.uncons
  obtain ⟨before, ahead⟩ := c
  obtain rfl : ahead = u :: r := hahead
  have hpoint : u.isPunct "." = false := by
    obtain ⟨hkind, htext, -⟩ := Token.unplaced_eq_iff.mp hu
    rw [isPunct, hkind, htext]
    exact hnext
  cases r with
  | nil => rfl
  | cons v r => simp [Cursor.nameParts, hpoint]

/-- The name is read as a reference. -/
theorem denotes_name : Denotes [ofWord " " "P"] (ofMark "" ")") (.reference "P" []) := by
  refine denotes_of_parsePrimary ⟨rfl, by decide⟩ (by simp) fun n more c hn hc => ⟨c.next, ?_, hc.next⟩
  obtain ⟨p, hpeek⟩ := hc.peek?
  have hbehind : c.next.Shows (ofMark "" ")" :: more) := hc.next
  have hname : c.qualifiedName = .ok ("P", c.next) := by
    simp [Cursor.qualifiedName, hc.identifier rfl, nameParts_shows hbehind, bind, Except.bind]
  have hreference : parseReference (.ofDepth n) c = .ok (.reference "P" [], c.next) := by
    simp [parseReference, hname, hbehind.nextIsIdent, hbehind.eat?_eq_none, bind, Except.bind]
  simp [parsePrimary, hpeek, parseNamed, keywords, hreference]

/-- An alias is read up to its semicolon. -/
theorem parseAll_alias (ht : Denotes ts (ofMark "" ";") t) {items : List Item}
    (hn : (ts ++ ofMark "" ";" :: more).length ≤ n) (hc : c.Shows (aliasHead ++ (ts ++ ofMark "" ";" :: more)))
    (hmore : ∀ d : Cursor, d.Shows more → Item.parseAll (.ofDepth (n + 1)) k d = .ok items) :
    Item.parseAll (.ofDepth (n + 1)) (k + 1) c = .ok (.alias ⟨"P", t⟩ :: items) := by
  have hc : c.Shows (ofWord "" "type" :: ofWord " " "P" :: ofMark " " "=" :: (ts ++ ofMark "" ";" :: more)) := hc
  have hname := hc.next
  obtain ⟨d, htype, hd⟩ := ht hn hname.next.next
  have htype : (Inner.ofDepth (n + 1)).type c.next.next.next = .ok (t, d) := htype
  have hsemicolon : d.skip ";" = d.next := by simp [Cursor.skip, hd.eat?]
  have hdecl : AliasDecl.parse (.ofDepth (n + 1)) c.next = .ok (⟨"P", t⟩, d.next) := by
    simp [AliasDecl.parse, hname.identifier rfl, hname.next.skipAnglesIfNext, hname.next.expect, htype, hsemicolon, bind,
      Except.bind]
  obtain ⟨p, hpeek⟩ := hc.peek?
  have hkind : c.nthIsKind 1 .ident = true := hc.nthIsKind 1 .ident
  have hequals : c.nthIs 2 "=" = true := hc.nthIs 2 "="
  have hbegins : Item.beginsFunction c = false := by simp [Item.beginsFunction, hc.nextIsIdent]
  have hitem : Item.parse (.ofDepth (n + 1)) c = .ok ([.alias ⟨"P", t⟩], d.next) := by
    simp [Item.parse, hc.nextIsIdent, Item.parseDeclaration, hc.skipIdent_eq_self, hpeek, Item.parseWord, hbegins, hkind,
      hequals, hdecl, Except.map]
  simp [Item.parseAll, hc.atEnd, hc.eat?_eq_none, hitem, hmore _ hd.next, bind, Except.bind]

variable {ss : List Signature} {opening brace : Token}

/-- An interface is read up to its closing brace. -/
theorem parseAll_interface (h : Signature.AreRead ss brace) (hbrace : brace.isPunct "\x7d" = true)
    (hopening : opening.isPunct "\x7b" = true) {items : List Item}
    (hn : (opening :: (ss.flatMap Signature.tokens ++ brace :: more)).length ≤ n)
    (hc : c.Shows (interfaceHead ++ opening :: (ss.flatMap Signature.tokens ++ brace :: more)))
    (hmore : ∀ d : Cursor, d.Shows more → Item.parseAll (.ofDepth n) k d = .ok items) :
    Item.parseAll (.ofDepth n) (k + 1) c = .ok (.interface ⟨"P", [], ss.map Signature.member⟩ :: items) := by
  have hc : c.Shows (ofWord "" "interface" :: ofWord " " "P" :: opening ::
    (ss.flatMap Signature.tokens ++ brace :: more)) := hc
  have hname := hc.next
  obtain ⟨d, hmembers, hd⟩ := h.parseObject hbrace hopening hn hname.next
  obtain ⟨hopeningKind, hopeningText⟩ := Token.isPunct_iff.mp hopening
  have hplain : opening.isPunct "<" = false ∧ opening.isIdent "extends" = false := by
    simp [isPunct, isIdent, hopeningKind, hopeningText]
  have hextends : InterfaceDecl.parseExtends (Inner.ofDepth n).rounds c.next.next = .ok ([], c.next.next) := by
    rw [InterfaceDecl.parseExtends, hname.next.eatIdent?_eq_none hplain.2]
  have hdecl : InterfaceDecl.parse (.ofDepth n) c.next = .ok (⟨"P", [], ss.map Signature.member⟩, d) := by
    simp [InterfaceDecl.parse, hname.identifier rfl, hname.next.skipAnglesIfNext hplain.1, hextends, hmembers, bind, Except.bind]
  obtain ⟨p, hpeek⟩ := hc.peek?
  have hkind : c.nthIsKind 1 .ident = true := hc.nthIsKind 1 .ident
  have hbegins : Item.beginsFunction c = false := by simp [Item.beginsFunction, hc.nextIsIdent]
  have hitem : Item.parse (.ofDepth n) c = .ok ([.interface ⟨"P", [], ss.map Signature.member⟩], d) := by
    simp [Item.parse, hc.nextIsIdent, Item.parseDeclaration, hc.skipIdent_eq_self, hpeek, Item.parseWord, hbegins, hkind,
      hdecl, Except.map]
  simp [Item.parseAll, hc.atEnd, hc.eat?_eq_none, hitem, hmore _ hd, bind, Except.bind]

/-! ## Three texts with a type between braces -/

open Lexer

/-- A handler whose parameter has a type between braces. -/
def inlineText (m : String) : String := "export function handler(i: \x7b" ++ m ++ "\x7d) \x7b\x7d"

/-- A handler whose parameter has the type of an alias, which stands between braces. -/
def aliasText (m : String) : String := "type P = \x7b" ++ m ++ "\x7d;\nexport function handler(i: P) \x7b\x7d"

/-- A handler whose parameter has the type of an interface. -/
def interfaceText (m : String) : String := "interface P \x7b" ++ m ++ "\x7d\nexport function handler(i: P) \x7b\x7d"

/-- The module of a handler whose parameter has a type of its own. -/
def inlineModule (t : TypeExpr) : Module := ⟨[.function (handlerOf t)]⟩

/-- The module of a handler whose parameter has the type of an alias. -/
def aliasModule (t : TypeExpr) : Module := ⟨[.alias ⟨"P", t⟩, .function (handlerOf (.reference "P" []))]⟩

/-- The module of a handler whose parameter has the type of an interface. -/
def interfaceModule (ms : List Member) : Module := ⟨[.interface ⟨"P", [], ms⟩, .function (handlerOf (.reference "P" []))]⟩

/-- The tokens of a handler whose parameter has the type of a name, in a line of its own. -/
def namedHandler : List Token := handlerHead "\n" ++ ([ofWord " " "P"] ++ handlerEnd)

theorem surrounds_inline : Surrounds "export function handler(i:".toList ") \x7b\x7d".toList (handlerHead "") handlerEnd where
  begins := by decide
  before jsx := by cases jsx <;> decide +kernel
  spelled := by decide
  behind jsx := ⟨8, .start, by cases jsx <;> decide +kernel⟩
  unmarked := by decide
  plain := by simp [Lexeme.closers]

theorem surrounds_alias :
    Surrounds "type P =".toList ";\nexport function handler(i: P) \x7b\x7d".toList aliasHead (ofMark "" ";" :: namedHandler) where
  begins := by decide
  before jsx := by cases jsx <;> decide +kernel
  spelled := by decide
  behind jsx := ⟨16, .start, by cases jsx <;> decide +kernel⟩
  unmarked := by decide
  plain := by simp [Lexeme.closers]

theorem surrounds_interface :
    Surrounds "interface P".toList "\nexport function handler(i: P) \x7b\x7d".toList interfaceHead namedHandler where
  begins := by decide
  before jsx := by cases jsx <;> decide +kernel
  spelled := by decide
  behind jsx := ⟨16, .start, by cases jsx <;> decide +kernel⟩
  unmarked := by decide
  plain := by simp [Lexeme.closers]

variable {m : String}

/-- The module of a text is that of tokens which are shown at its beginning. -/
theorem ofSource_of_shows {source : String} {all : List Token} {items : List Item} (htokens : tokenize source = .ok all)
    (hall : all.map Token.unplaced = ts.map Token.unplaced)
    (h : ∀ c : Cursor, c.Shows ts → Item.parseAll (.ofDepth (ts.length + 1)) (ts.length + 1) c = .ok items) :
    Module.ofSource source = .ok ⟨items⟩ := by
  have hc : (Cursor.start all).Shows ts := hall
  have hlength : all.length = ts.length := hc.length_eq
  rw [Module.ofSource, htokens]
  change (Item.parseAll (.ofDepth (all.length + 1)) (all.length + 1) (.start all)).map _ = _
  rw [hlength, h _ hc]
  rfl

/-- A type between braces is that of the parameter. -/
theorem ofSource_inlineText (hm : IsEnclosed m ts brace)
    (ht : Denotes (openBrace " " :: (ts ++ [brace])) (ofMark "" ")") t) :
    Module.ofSource (inlineText m) = .ok (inlineModule t) := by
  have htext : (inlineText m).toList =
      "export function handler(i:".toList ++ ' ' :: '\x7b' :: (m.toList ++ '\x7d' :: ") \x7b\x7d".toList) := by
    have hfront : "export function handler(i: \x7b".toList = "export function handler(i:".toList ++ [' ', '\x7b'] := by decide
    have hback : "\x7d) \x7b\x7d".toList = '\x7d' :: ") \x7b\x7d".toList := by decide
    refine (toList_between _ m _).trans ?_
    rw [hfront, hback]
    simp
  obtain ⟨all, htokens, hall⟩ := tokenize_between surrounds_inline hm htext
  refine ofSource_of_shows htokens hall fun c hc => ?_
  have hsplit : handlerHead "" ++ openBrace " " :: (ts ++ brace :: handlerEnd) =
      handlerHead "" ++ ((openBrace " " :: (ts ++ [brace])) ++ handlerEnd) := by simp
  rw [hsplit] at hc ⊢
  exact parseAll_handler ht (Nat.le_refl _) (Nat.le_succ _) hc

/-- A type between braces is that of the alias. -/
theorem ofSource_aliasText (hm : IsEnclosed m ts brace)
    (ht : Denotes (openBrace " " :: (ts ++ [brace])) (ofMark "" ";") t) :
    Module.ofSource (aliasText m) = .ok (aliasModule t) := by
  have htext : (aliasText m).toList =
      "type P =".toList ++ ' ' :: '\x7b' :: (m.toList ++ '\x7d' :: ";\nexport function handler(i: P) \x7b\x7d".toList) := by
    have hfront : "type P = \x7b".toList = "type P =".toList ++ [' ', '\x7b'] := by decide
    have hback : "\x7d;\nexport function handler(i: P) \x7b\x7d".toList =
      '\x7d' :: ";\nexport function handler(i: P) \x7b\x7d".toList := by decide
    refine (toList_between _ m _).trans ?_
    rw [hfront, hback]
    simp
  obtain ⟨all, htokens, hall⟩ := tokenize_between surrounds_alias hm htext
  refine ofSource_of_shows htokens hall fun c hc => ?_
  have hsplit : aliasHead ++ openBrace " " :: (ts ++ brace :: ofMark "" ";" :: namedHandler) =
      aliasHead ++ ((openBrace " " :: (ts ++ [brace])) ++ ofMark "" ";" :: namedHandler) := by simp
  rw [hsplit] at hc ⊢
  refine parseAll_alias ht (List.suffix_append _ _).length_le hc fun d hd => ?_
  refine parseAll_handler denotes_name ?_ (Nat.le_refl _) hd
  change namedHandler.length ≤ _
  simp only [List.length_append, List.length_cons]
  omega

/-- Signatures between braces are the members of the interface. -/
theorem ofSource_interfaceText (hm : IsEnclosed m (ss.flatMap Signature.tokens) brace) (h : Signature.AreRead ss brace) :
    Module.ofSource (interfaceText m) = .ok (interfaceModule (ss.map Signature.member)) := by
  have htext : (interfaceText m).toList =
      "interface P".toList ++ ' ' :: '\x7b' :: (m.toList ++ '\x7d' :: "\nexport function handler(i: P) \x7b\x7d".toList) := by
    have hfront : "interface P \x7b".toList = "interface P".toList ++ [' ', '\x7b'] := by decide
    have hback : "\x7d\nexport function handler(i: P) \x7b\x7d".toList =
      '\x7d' :: "\nexport function handler(i: P) \x7b\x7d".toList := by decide
    refine (toList_between _ m _).trans ?_
    rw [hfront, hback]
    simp
  obtain ⟨all, htokens, hall⟩ := tokenize_between surrounds_interface hm htext
  refine ofSource_of_shows htokens hall fun c hc => ?_
  refine parseAll_interface h hm.isPunct rfl ((List.suffix_append _ _).length_le.trans (Nat.le_succ _)) hc fun d hd => ?_
  refine parseAll_handler denotes_name ?_ (Nat.le_refl _) hd
  change namedHandler.length ≤ _
  simp only [List.length_append, List.length_cons]
  omega

end AppBundler
