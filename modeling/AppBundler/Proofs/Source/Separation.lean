import AppBundler.Proofs.Source.NextLine
import AppBundler.Proofs.Source.Tree.Items
/-!
# Statements without semicolons

A declaration whose initializer is read up to its last token is separated from an `export` on the next line exactly
when that token may end a statement where a line ends. Otherwise the initializer goes on into the next line, and the
export is lost.
-/

namespace AppBundler

open Cursor

/-! ## Items that begin with `export` -/

section Export

variable {t u : Token} {ts us : List Token} {b b' : Option Token} {p q n m : Nat}

theorem Token.isIdent_of_trace (htrace : t.trace = u.trace) (name : String) : u.isIdent name = t.isIdent name := by
  obtain ⟨hkind, htext, -⟩ := trace_eq_iff.mp htrace
  rw [isIdent, isIdent, hkind, htext]

theorem nextIs_export (ht : t.isIdent "export" = true) (punct : String) :
    (⟨b, t :: ts⟩ : Cursor).nextIs punct = false := by
  obtain ⟨hkind, -⟩ : t.kind = .ident ∧ t.text = "export" := by simpa [Token.isIdent] using ht
  simp [nextIs, nthIs, peekAt?, Token.isPunct, hkind]

/-- A declaration that begins with `export` is none. -/
theorem Item.parseDeclaration_export {inner : Inner} {exported : ExportKind} (ht : t.isIdent "export" = true) :
    Item.parseDeclaration inner exported ⟨b, t :: ts⟩ = .ok ([], statementRest false 0 (some t) ts) := by
  obtain ⟨hkind, htext⟩ : t.kind = .ident ∧ t.text = "export" := by simpa [Token.isIdent] using ht
  simp [parseDeclaration, parseWord, beginsFunction, skipIdent, eatIdent?, nextIsIdent, nthIsIdent, peekAt?, peek?,
    skipStatement, statementRest, Token.isIdent, Token.isPunct, Token.isPunctOf, hkind, htext]

/-- What stands before `export` does not matter to the item that begins with it. -/
theorem Item.parse_export {inner : Inner} (ht : t.isIdent "export" = true) :
    Item.parse inner ⟨b, t :: ts⟩ =
      if (⟨some t, ts⟩ : Cursor).nextIs "." then .ok ([], statementRest false 0 (some t) ts)
      else Item.parseExport inner ⟨some t, ts⟩ := by
  have hhere : (⟨b, t :: ts⟩ : Cursor).nextIsIdent "export" = true := ht
  have hdot : (⟨b, t :: ts⟩ : Cursor).nthIs 1 "." = (⟨some t, ts⟩ : Cursor).nextIs "." := rfl
  rw [Item.parse, hhere, hdot]
  cases (⟨some t, ts⟩ : Cursor).nextIs "." with
  | true => exact Item.parseDeclaration_export ht
  | false => rfl

/-- **What stands before an export** does not matter to it, nor how far it is away. -/
theorem Item.parseAll_export (ht : t.isIdent "export" = true) (htrace : t.trace = u.trace)
    (hface : ts.map Token.face = us.map Token.face) (hp : ts.length + 1 ≤ p) (hq : ts.length + 1 ≤ q)
    (hn : ts.length + 1 < n) (hm : ts.length + 1 < m) :
    Item.parseAll (.ofDepth p) n ⟨b, t :: ts⟩ = Item.parseAll (.ofDepth q) m ⟨b', u :: us⟩ := by
  have hu : u.isIdent "export" = true := by rw [Token.isIdent_of_trace htrace, ht]
  have h : Alike .exact SameFaults ⟨some t, ts⟩ ⟨some u, us⟩ := alike_of_face (by simp [htrace]) hface
  have hi : Inner.Rel .exact SameFaults (ts.length + 1) (.ofDepth p) (.ofDepth q) := Inner.ofDepth_rel hp hq
  obtain ⟨n, rfl⟩ : ∃ k, n = k + 1 := ⟨n - 1, by omega⟩
  obtain ⟨m, rfl⟩ : ∃ k, m = k + 1 := ⟨m - 1, by omega⟩
  have hitem : Parsed.Rel SameFaults (NearLike .exact SameFaults (ts.length + 1))
      (Item.parse (.ofDepth p) ⟨b, t :: ts⟩) (Item.parse (.ofDepth q) ⟨b', u :: us⟩) := by
    rw [Item.parse_export ht, Item.parse_export hu, h.nextIs]
    refine rel_ite (fun _ => .ok ⟨rfl, h.statementRest false 0⟩) fun _ => ?_
    exact Item.parseExport_rel hi h (Nat.lt_succ_self _)
  have hsemicolon : ∀ {b : Option Token} {t : Token} {ts : List Token}, t.isIdent "export" = true →
      (⟨b, t :: ts⟩ : Cursor).eat? ";" = none := by
    intro b t ts ht
    rw [eat?, nextIs_export ht, if_neg (by decide)]
  rw [Item.parseAll, Item.parseAll, hsemicolon ht, hsemicolon hu]
  refine Parsed.Rel.eq (bindLike hitem fun here here' c d hhere h hlt => ?_)
  refine (Item.parseAll_rel hi h (by omega) (by omega) (by omega)).bind fun more more' hmore => ?_
  exact .ok (by rw [reword_append, reword_append, hhere, hmore])

end Export

/-! ## The declaration -/

/-- The tokens of `const k =`. -/
def declared : List Token :=
  [⟨.ident, "const", "", ⟨0, 1, 1⟩, none⟩, ⟨.ident, "k", " ", ⟨6, 1, 7⟩, none⟩, ⟨.punct, "=", " ", ⟨8, 1, 9⟩, none⟩]

section Declared

variable {ts : List Token} {c : Cursor} {e : Expr} {depth n : Nat}

/-- The place before the initializer. -/
def atInitializer (ts : List Token) : Cursor := ⟨declared.getLast?, ts⟩

/-- **The declaration** is read up to where its initializer ends, with the semicolon that may come next. -/
theorem Item.parse_declared (he : Expr.parse (.ofDepth depth) (atInitializer ts) = .ok (e, c))
    (hcomma : c.nextIs "," = false) :
    Item.parse (.ofDepth (depth + 1)) (.start (declared ++ ts)) =
      .ok ([.variable ⟨"k", none, some e, .none⟩], c.skip ";") := by
  have hvariable : VariableDecl.parse (.ofDepth (depth + 1)) .none ⟨declared.head?, declared.tail ++ ts⟩ =
      .ok (some ⟨"k", none, some e, .none⟩, c) := by
    have hinit : (Inner.ofDepth (depth + 1)).initializer? ⟨declared.tail.head?, declared.tail.tail ++ ts⟩ =
        .ok (some e, c) := by
      change Except.map _ (Expr.parse (.ofDepth depth) (atInitializer ts)) = _
      rw [he]
      rfl
    change (Inner.ofDepth (depth + 1)).initializer? ⟨declared.tail.head?, declared.tail.tail ++ ts⟩ >>= _ = _
    rw [hinit]
    rfl
  have hrest : VariableDecl.parseRest (.ofDepth (depth + 1)) .none (depth + 1)
      ⟨declared.head?, declared.tail ++ ts⟩ = .ok ([⟨"k", none, some e, .none⟩], c) := by
    have hend : c.eat? "," = none := by rw [eat?, hcomma, if_neg (by decide)]
    simp only [VariableDecl.parseRest, hvariable, bind, Except.bind, hend]
    rfl
  change Except.map _ (VariableDecl.parseRest (.ofDepth (depth + 1)) .none (depth + 1)
    ⟨declared.head?, declared.tail ++ ts⟩) = _
  rw [hrest]
  rfl

/-- The first item of such a module is the declaration, and what follows are the items from there on. -/
theorem Module.ofTokens_declared
    (he : Expr.parse (.ofDepth (declared ++ ts).length) (atInitializer ts) = .ok (e, c)) (hcomma : c.nextIs "," = false) :
    Module.ofTokens (declared ++ ts) =
      (Item.parseAll (.ofDepth ((declared ++ ts).length + 1)) (declared ++ ts).length (c.skip ";")).map
        fun items => ⟨.variable ⟨"k", none, some e, .none⟩ :: items⟩ := by
  have hitem := Item.parse_declared he hcomma
  have hnone : (Cursor.start (declared ++ ts)).eat? ";" = none := rfl
  have hleft : (Cursor.start (declared ++ ts)).atEnd = false := rfl
  rw [Module.ofTokens]
  simp only [Item.parseAll, hleft, hnone, hitem, Bool.false_eq_true, if_false, bind, Except.bind]
  cases Item.parseAll (.ofDepth ((declared ++ ts).length + 1)) (declared ++ ts).length (c.skip ";") with
  | ok items => rfl
  | error f => rfl

end Declared

/-! ## With and without a semicolon -/

/-- The declaration of a constant. -/
def declaration (initializer : String) : String := "const k = " ++ initializer

/-- The declaration, a line break and what follows. -/
def unterminated (initializer following : String) : String := declaration initializer ++ "\n" ++ following

/-- The declaration with a semicolon, a line break and what follows. -/
def terminated (initializer following : String) : String := declaration initializer ++ ";\n" ++ following

/-- The tokens of an initializer that has a semicolon behind it, the last token of the text. -/
structure IsInitializer (jsx : Bool) (initializer : String) (ts : List Token) (semicolon : Token) : Prop where
  tokens : Lexer.run jsx (declaration initializer ++ ";").toList = .ok (declared ++ ts ++ [semicolon])
  spelled : spell (declared ++ ts ++ [semicolon]) = declaration initializer ++ ";"
  text : semicolon.text = ";"

/-- In a source, which is read with or without elements, the operand with its suffixes that begins an initializer ends
with the last of the tokens. -/
structure Consumes (jsx : Bool) (ts : List Token) (e : Expr) (source : String) : Prop where
  mode : Lexer.tokens source.toList = Lexer.run jsx source.toList
  operand : ∀ rest, Lexer.run jsx source.toList = .ok (declared ++ ts ++ rest) →
    Expr.parsePostfix (.ofDepth (declared ++ ts ++ rest).length) (atInitializer (ts ++ rest)) =
      .ok (e, ⟨ts.getLast?, rest⟩)

section Separation

variable {jsx : Bool} {initializer following : String} {ts us : List Token} {last semicolon t : Token} {e : Expr}

theorem IsInitializer.endsIn (h : IsInitializer jsx initializer ts semicolon) :
    Lexer.EndsIn jsx (declaration initializer).toList (declared ++ ts) semicolon where
  begins := by simp [declaration]
  tokens := by simpa using h.tokens
  spelled := by
    have hspelled := congrArg String.toList h.spelled
    rw [declared, List.cons_append, List.cons_append, spell_toList] at hspelled
    simpa [declared] using hspelled
  text := h.text

theorem unterminated_toList :
    (unterminated initializer following).toList = (declaration initializer).toList ++ '\n' :: following.toList := by
  simp [unterminated]

theorem terminated_toList :
    (terminated initializer following).toList = (declaration initializer).toList ++ ';' :: '\n' :: following.toList := by
  simp [terminated]

/-- An expression ends before an export on the next line if its last token may end a line. -/
theorem Expr.endsAt_export (ht : t.isIdent "export" = true) (hline : t.newlineBefore = true) :
    Expr.endsAt ⟨some last, t :: us⟩ = endsLine last := by
  obtain ⟨hkind, htext⟩ : t.kind = .ident ∧ t.text = "export" := by simpa [Token.isIdent] using ht
  simp [Expr.endsAt, peek?, atBreak, breaksBetween, beginsLine, continuingKeywords, hkind, htext, hline]

theorem Expr.endsAt_semicolon {b : Option Token} (hkind : semicolon.kind = .punct) (htext : semicolon.text = ";") :
    Expr.endsAt ⟨b, semicolon :: us⟩ = true := by
  simp [Expr.endsAt, peek?, endsExpr, Token.isPunctOf, hkind, htext]

theorem nextIs_semicolon {b : Option Token} (htext : semicolon.text = ";") :
    (⟨b, semicolon :: us⟩ : Cursor).nextIs "," = false := by
  simp [nextIs, nthIs, peekAt?, Token.isPunct, htext]

theorem skip_semicolon {b : Option Token} (hkind : semicolon.kind = .punct) (htext : semicolon.text = ";") :
    (⟨b, semicolon :: us⟩ : Cursor).skip ";" = ⟨some semicolon, us⟩ := by
  simp [skip, eat?, nextIs, nthIs, peekAt?, Token.isPunct, next, hkind, htext]

/-- An operand that is consumed is the whole expression, if that may end behind it. -/
theorem Consumes.parse {source : String} {rest : List Token} (h : Consumes jsx ts e source)
    (hrun : Lexer.run jsx source.toList = .ok (declared ++ ts ++ rest)) :
    Expr.parse (.ofDepth (declared ++ (ts ++ rest)).length) (atInitializer (ts ++ rest)) =
      if Expr.endsAt ⟨ts.getLast?, rest⟩ then .ok (e, ⟨ts.getLast?, rest⟩)
      else .ok (.other, (⟨ts.getLast?, rest⟩ : Cursor).skipExpr) := by
  rw [← List.append_assoc, Expr.parse, h.operand rest hrun]

/-- **The export on the next line** is no part of a declaration whose last token may end a line. -/
theorem IsInitializer.separated (h : IsInitializer jsx initializer ts semicolon) (hlast : ts.getLast? = some last)
    (hends : endsLine last = true) (hs : Lexer.BeginsExport following.toList)
    (hopen : Consumes jsx ts e (unterminated initializer following))
    (hclosed : Consumes jsx ts e (terminated initializer following)) :
    Module.ofSource (unterminated initializer following) = Module.ofSource (terminated initializer following) := by
  obtain ⟨g, d, r, hscan, hr⟩ := hs
  obtain ⟨t, u, p, q, n, m, ht, hline, htrace, hplace, hn, hm, hrun, hrun'⟩ := h.endsIn.export_next hscan hr
  have hfollow : Token.operandMayFollow (some t) = Token.operandMayFollow (some u) := by
    obtain ⟨hkind, htext, -⟩ := Token.trace_eq_iff.mp htrace
    rw [Token.operandMayFollow, Token.operandMayFollow, hkind, htext]
  have hface : (Lexer.from? jsx n ⟨some t, p, r⟩).map (List.map Token.face) =
      (Lexer.from? jsx m ⟨some u, q, r⟩).map (List.map Token.face) := Lexer.tokensFrom_face hfollow hplace hn hm
  rw [← unterminated_toList] at hrun
  rw [← terminated_toList] at hrun'
  rw [Module.ofSource, Module.ofSource, tokenize, tokenize, hopen.mode, hclosed.mode]
  generalize Lexer.from? jsx n ⟨some t, p, r⟩ = x at hrun hface
  generalize Lexer.from? jsx m ⟨some u, q, r⟩ = y at hrun' hface
  match x, y with
  | .error f, .error f' =>
    obtain rfl : f = f' := Except.error.inj hface
    rw [hrun, hrun']
    rfl
  | .error f, .ok ys => cases hface
  | .ok xs, .error f' => cases hface
  | .ok xs, .ok ys =>
    replace hface : xs.map Token.face = ys.map Token.face := Except.ok.inj hface
    have hparse := hopen.parse hrun
    rw [hlast, Expr.endsAt_export ht hline, hends, if_pos rfl] at hparse
    have hparse' := hclosed.parse hrun'
    rw [Expr.endsAt_semicolon h.endsIn.kind h.text, if_pos rfl] at hparse'
    have hmodule := Module.ofTokens_declared hparse (nextIs_export ht ",")
    have hmodule' := Module.ofTokens_declared hparse' (nextIs_semicolon h.text)
    have hskip : (⟨some last, t :: xs⟩ : Cursor).skip ";" = ⟨some last, t :: xs⟩ := by
      rw [skip, eat?, nextIs_export ht, if_neg (by decide)]
      rfl
    rw [hskip] at hmodule
    rw [skip_semicolon h.endsIn.kind h.text] at hmodule'
    have hlength : xs.length = ys.length := by simpa using congrArg List.length hface
    have hopen_length : (declared ++ (ts ++ t :: xs)).length = ts.length + xs.length + 4 := by
      simp only [declared, List.length_append, List.length_cons, List.length_nil]
      omega
    have hclosed_length : (declared ++ (ts ++ semicolon :: u :: ys)).length = ts.length + ys.length + 5 := by
      simp only [declared, List.length_append, List.length_cons, List.length_nil]
      omega
    have hitems : Item.parseAll (.ofDepth ((declared ++ (ts ++ t :: xs)).length + 1))
          (declared ++ (ts ++ t :: xs)).length ⟨some last, t :: xs⟩ =
        Item.parseAll (.ofDepth ((declared ++ (ts ++ semicolon :: u :: ys)).length + 1))
          (declared ++ (ts ++ semicolon :: u :: ys)).length ⟨some semicolon, u :: ys⟩ :=
      Item.parseAll_export ht htrace hface (by omega) (by omega) (by omega) (by omega)
    rw [hrun, hrun']
    change Module.ofTokens (declared ++ ts ++ t :: xs) = Module.ofTokens (declared ++ ts ++ semicolon :: u :: ys)
    rw [List.append_assoc, List.append_assoc, hmodule, hmodule', hitems]

/-! ## Swallowed exports -/

/-- An export that exports nothing. -/
def emptyExport : String := "export \x7b\x7d"

/-- The braces of the empty export. -/
def braces (p : Position) : List Token :=
  [⟨.punct, "\x7b", " ", p.after [' '], none⟩, ⟨.punct, "\x7d", "", (p.after [' ']).after ['\x7b'], none⟩]

theorem from?_braces {l : Option Token} {p : Position} {n : Nat} (hn : 3 < n) :
    Lexer.from? jsx n ⟨l, p, " \x7b\x7d".toList⟩ = .ok (braces p) := by
  obtain ⟨k, rfl⟩ : ∃ k, n = k + 4 := ⟨n - 4, by omega⟩
  rfl

/-- The empty export is an item of its own. -/
theorem Item.parseAll_emptyExport {b : Option Token} {depth n : Nat} {p : Position} (ht : t.isIdent "export" = true) :
    Item.parseAll (.ofDepth (depth + 1)) (n + 2) ⟨b, t :: braces p⟩ = .ok [.exportNamed [] none] := by
  have hitem : Item.parse (.ofDepth (depth + 1)) ⟨b, t :: braces p⟩ =
      .ok ([.exportNamed [] none], ⟨(braces p).getLast?, []⟩) := by
    rw [Item.parse_export ht]
    rfl
  have hsemicolon : (⟨b, t :: braces p⟩ : Cursor).eat? ";" = none := by
    rw [eat?, nextIs_export ht, if_neg (by decide)]
  rw [Item.parseAll, hsemicolon]
  simp only [atEnd, List.isEmpty_cons, Bool.false_eq_true, if_false, hitem, bind, Except.bind]
  rfl

/-- Passed over as a part of an expression, it leaves nothing. -/
theorem skipExpr_emptyExport {b : Option Token} {p : Position} (ht : t.isIdent "export" = true) :
    (⟨b, t :: braces p⟩ : Cursor).skipExpr = ⟨(braces p).getLast?, []⟩ := by
  obtain ⟨hkind, htext⟩ : t.kind = .ident ∧ t.text = "export" := by simpa [Token.isIdent] using ht
  simp [skipExpr, exprRest, braces, endsExpr, Token.isPunctOf, openers, closers, breaksBetween, beginsLine, hkind]

theorem emptyExport_stops : ∀ c ∈ " \x7b\x7d".toList.head?, Lexeme.isIdentContinue c = false := by
  intro c hc
  obtain rfl : ' ' = c := by simpa using hc
  rfl

theorem scan_emptyExport : Gap.scan emptyExport.toList = .ok ⟨[], none, "export".toList ++ " \x7b\x7d".toList⟩ := by
  rw [emptyExport, String.toList]
  rfl

/-- **The export on the next line is lost** behind a declaration whose last token may not end a line: it is taken for a
part of the initializer, which then is not told. -/
theorem IsInitializer.swallowed (h : IsInitializer jsx initializer ts semicolon) (hlast : ts.getLast? = some last)
    (hends : endsLine last = false) (hopen : Consumes jsx ts e (unterminated initializer emptyExport))
    (hclosed : Consumes jsx ts e (terminated initializer emptyExport)) :
    Module.ofSource (unterminated initializer emptyExport) = .ok ⟨[.variable ⟨"k", none, some .other, .none⟩]⟩ ∧
      Module.ofSource (terminated initializer emptyExport) =
        .ok ⟨[.variable ⟨"k", none, some e, .none⟩, .exportNamed [] none]⟩ := by
  obtain ⟨t, u, p, q, n, m, ht, hline, htrace, -, hn, hm, hrun, hrun'⟩ :=
    h.endsIn.export_next scan_emptyExport emptyExport_stops
  rw [from?_braces hn, ← unterminated_toList] at hrun
  rw [from?_braces hm, ← terminated_toList] at hrun'
  have hu : u.isIdent "export" = true := by rw [Token.isIdent_of_trace htrace, ht]
  have hparse := hopen.parse hrun
  rw [hlast, Expr.endsAt_export ht hline, hends, if_neg (by decide), skipExpr_emptyExport ht] at hparse
  have hparse' := hclosed.parse hrun'
  rw [Expr.endsAt_semicolon h.endsIn.kind h.text, if_pos rfl] at hparse'
  have hcomma : (⟨(braces p).getLast?, []⟩ : Cursor).nextIs "," = false := rfl
  have hskip : (⟨(braces p).getLast?, []⟩ : Cursor).skip ";" = ⟨(braces p).getLast?, []⟩ := rfl
  have hmodule := Module.ofTokens_declared hparse hcomma
  have hmodule' := Module.ofTokens_declared hparse' (nextIs_semicolon h.text)
  rw [hskip] at hmodule
  rw [skip_semicolon h.endsIn.kind h.text] at hmodule'
  have hlength : ∃ k, (declared ++ (ts ++ semicolon :: u :: braces q)).length = k + 2 :=
    ⟨(declared ++ (ts ++ semicolon :: u :: braces q)).length - 2, by simp [declared]⟩
  obtain ⟨k, hk⟩ := hlength
  rw [hk, Item.parseAll_emptyExport hu] at hmodule'
  rw [Module.ofSource, Module.ofSource, tokenize, tokenize, hopen.mode, hclosed.mode, hrun, hrun']
  constructor
  · change Module.ofTokens (declared ++ ts ++ t :: braces p) = _
    rw [List.append_assoc, hmodule]
    rfl
  · change Module.ofTokens (declared ++ ts ++ semicolon :: u :: braces q) = _
    rw [List.append_assoc, hmodule']
    rfl

/-- **A declaration is separated** from every export on the next line exactly when the last token of its initializer
may end a line. -/
theorem IsInitializer.separated_iff_endsLine (h : IsInitializer jsx initializer ts semicolon)
    (hlast : ts.getLast? = some last) (hopen : Consumes jsx ts e (unterminated initializer emptyExport))
    (hclosed : Consumes jsx ts e (terminated initializer emptyExport)) :
    (∀ following e, Lexer.BeginsExport following.toList → Consumes jsx ts e (unterminated initializer following) →
      Consumes jsx ts e (terminated initializer following) →
      Module.ofSource (unterminated initializer following) = Module.ofSource (terminated initializer following)) ↔
      endsLine last = true := by
  constructor
  · intro hall
    by_contra hends
    obtain ⟨hlost, hkept⟩ := h.swallowed hlast (Bool.eq_false_iff.mpr hends) hopen hclosed
    have hsame := hall emptyExport e ⟨_, _, _, scan_emptyExport, emptyExport_stops⟩ hopen hclosed
    rw [hlost, hkept] at hsame
    have hitems := congrArg Module.items (Except.ok.inj hsame)
    simp at hitems
  · intro hends following e hs hopen hclosed
    exact h.separated hlast hends hs hopen hclosed

end Separation

/-! ## Two initializers -/

/-- A token on the first line. -/
def tokenAt (kind : TokenKind) (text gap : String) (offset : Nat) : Token :=
  ⟨kind, text, gap, ⟨offset, 1, offset + 1⟩, none⟩

/-- What is to be checked of a source without elements, the tokens of which are known. -/
theorem consumes_of_run {ts : List Token} {e : Expr} {source : String} (rest : List Token)
    (hmode : Lexer.mayHaveElements source.toList = false)
    (hrun : Lexer.run false source.toList = .ok (declared ++ ts ++ rest))
    (hoperand : Expr.parsePostfix (.ofDepth (declared ++ ts ++ rest).length) (atInitializer (ts ++ rest)) =
      .ok (e, ⟨ts.getLast?, rest⟩)) : Consumes false ts e source where
  mode := by rw [Lexer.tokens, hmode, if_neg (by decide)]
  operand := by
    intro rest' hrest
    rw [hrun] at hrest
    rw [← List.append_cancel_left (Except.ok.inj hrest)]
    exact hoperand

/-- A name may end a line: every export on the next line is kept. -/
theorem IsInitializer.separated_iff_endsLine_name :
    (∀ following e, Lexer.BeginsExport following.toList →
      Consumes false [tokenAt .ident "a" " " 10] e (unterminated "a" following) →
      Consumes false [tokenAt .ident "a" " " 10] e (terminated "a" following) →
      Module.ofSource (unterminated "a" following) = Module.ofSource (terminated "a" following)) ↔
      endsLine (tokenAt .ident "a" " " 10) = true := by
  have h : IsInitializer false "a" [tokenAt .ident "a" " " 10] (tokenAt .punct ";" "" 11) :=
    ⟨rfl, by decide +kernel, rfl⟩
  have hopen : Consumes false [tokenAt .ident "a" " " 10] (.ident "a") (unterminated "a" emptyExport) :=
    consumes_of_run (⟨.ident, "export", "\n", ⟨12, 2, 1⟩, none⟩ :: braces ⟨18, 2, 7⟩) (by decide +kernel) rfl rfl
  have hclosed : Consumes false [tokenAt .ident "a" " " 10] (.ident "a") (terminated "a" emptyExport) :=
    consumes_of_run (tokenAt .punct ";" "" 11 :: ⟨.ident, "export", "\n", ⟨13, 2, 1⟩, none⟩ :: braces ⟨19, 2, 7⟩)
      (by decide +kernel) rfl rfl
  exact IsInitializer.separated_iff_endsLine h rfl hopen hclosed

/-- An operand may end with an exclamation mark, but no line may: a handler that is exported on the next line is lost. -/
theorem handler_lost_behind_nonNull :
    Module.ofSource (unterminated "a!" "export function handler()\x7b\x7d") =
        .ok ⟨[.variable ⟨"k", none, some .other, .none⟩]⟩ ∧
      Module.ofSource (terminated "a!" "export function handler()\x7b\x7d") =
        .ok ⟨[.variable ⟨"k", none, some (.ident "a"), .none⟩, .function ⟨some "handler", ⟨[], false⟩, .named⟩]⟩ :=
  ⟨rfl, rfl⟩

end AppBundler
