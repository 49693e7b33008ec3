import AppBundler.Proofs.Source.Tree.Layout
/-!
# Objects that bind texts to names

An import is passed over up to its semicolon. An object literal whose properties are string literals, each bound to a
plain name, is read as such, wherever it stands.
-/

namespace AppBundler

open Token

variable {c : Cursor} {gap : String} {ts more : List Token} {t semicolon : Token}

/-! ## Statements that are passed over -/

/-- A token inside a statement: it opens and closes no group, and the statement does not end at it. -/
def Token.InStatement (t : Token) : Prop :=
  t.newlineBefore = false ∧ t.isPunctOf Cursor.openers = false ∧ t.isPunctOf Cursor.closers = false ∧ t.isPunct ";" = false

instance : DecidablePred Token.InStatement := fun _ => inferInstanceAs (Decidable (_ ∧ _))

theorem Token.InStatement.of_unplaced {u : Token} (h : t.InStatement) (hu : u.unplaced = t.unplaced) : u.InStatement := by
  obtain ⟨hkind, htext, hgap, -⟩ := Token.unplaced_eq_iff.mp hu
  simpa only [InStatement, newlineBefore, isPunctOf, isPunct, hkind, htext, hgap] using h

/-- The rest of a statement is passed over with its semicolon. -/
theorem statementRest_shows (hts : ∀ t ∈ ts, t.InStatement) (hsemicolon : semicolon.isPunct ";" = true)
    (hbreak : semicolon.newlineBefore = false) {before : Option Token} {ahead : List Token}
    (h : ahead.map Token.unplaced = (ts ++ semicolon :: more).map Token.unplaced) :
    (Cursor.statementRest false 0 before ahead).Shows more := by
  induction ts generalizing before ahead with
  | nil =>
    obtain ⟨u, r, rfl, hu, hr⟩ := List.map_eq_cons_iff.mp h
    obtain ⟨hkind, htext, hgap, -⟩ := Token.unplaced_eq_iff.mp hu
    obtain ⟨hkind', htext'⟩ := Token.isPunct_iff.mp hsemicolon
    have hline : u.newlineBefore = false := by rw [newlineBefore, hgap]; exact hbreak
    have hbetween : Cursor.breaksBetween before u = false := by
      cases before <;> simp [Cursor.breaksBetween, hline]
    have hrest : Cursor.statementRest false 0 before (u :: r) = ⟨some u, r⟩ := by
      simp [Cursor.statementRest, hbetween, isPunctOf, isPunct, hkind, htext, hkind', htext', Cursor.openers, Cursor.closers]
    rw [hrest]
    exact hr
  | cons t ts ih =>
    obtain ⟨ht, hts⟩ := List.forall_mem_cons.mp hts
    obtain ⟨u, r, rfl, hu, hr⟩ := List.map_eq_cons_iff.mp h
    obtain ⟨hline, hopen, hclose, hend⟩ := ht.of_unplaced hu
    have hbetween : Cursor.breaksBetween before u = false := by
      cases before <;> simp [Cursor.breaksBetween, hline]
    have hrest : Cursor.statementRest false 0 before (u :: r) = Cursor.statementRest false 0 (some u) r := by
      simp [Cursor.statementRest, hbetween, hopen, hclose, hend]
    rw [hrest]
    exact ih hts hr

/-- An import declares nothing. -/
theorem Item.parse_import (inner : Inner) (hts : ∀ t ∈ ts, t.InStatement) (hsemicolon : semicolon.isPunct ";" = true)
    (hbreak : semicolon.newlineBefore = false) (hc : c.Shows (ofWord gap "import" :: (ts ++ semicolon :: more))) :
    ∃ d, Item.parse inner c = .ok ([], d) ∧ d.Shows more := by
  obtain ⟨u, r, hahead, hu, -⟩ := hc.uncons
  have hrest : r.map Token.unplaced = (ts ++ semicolon :: more).map Token.unplaced := by
    have hmap : c.ahead.map Token.unplaced = (ofWord gap "import" :: (ts ++ semicolon :: more)).map Token.unplaced := hc
    rw [hahead] at hmap
    exact (List.cons.inj hmap).2
  obtain ⟨hkind, htext, -⟩ := Token.unplaced_eq_iff.mp hu
  refine ⟨Cursor.statementRest false 0 (some u) r, ?_, statementRest_shows hts hsemicolon hbreak hrest⟩
  have hskip : c.skipStatement = Cursor.statementRest false 0 (some u) r := by
    rw [Cursor.skipStatement, hahead]
    simp [Cursor.statementRest, isPunctOf, isPunct, hkind]
  obtain ⟨p, hpeek⟩ := hc.peek?
  have hbegins : Item.beginsFunction c = false := by simp [Item.beginsFunction, hc.nextIsIdent]
  simp [Item.parse, hc.nextIsIdent, Item.parseDeclaration, hc.skipIdent_eq_self, hpeek, Item.parseWord, hbegins, hskip]

/-! ## Expressions -/

namespace Expr

variable {d : Cursor} {n : Nat} {e : Expr} {name mark : String}

/-- An operand before a comma, a semicolon or a closing brace is an expression. -/
theorem parse_of_parsePrimary (hmark : mark = "," ∨ mark = ";" ∨ mark = "\x7d")
    (h : parsePrimary (.ofDepth (n + 1)) c = .ok (e, d)) (hd : d.Shows (ofMark gap mark :: more)) :
    Expr.parse (.ofDepth (n + 1)) c = .ok (e, d) := by
  obtain ⟨p, hpeek⟩ := hd.peek?
  have hsuffix : parseSuffix (.ofDepth (n + 1)) e d = .ok none := by
    have hkind : d.nextIsKind .template = false := hd.nthIsKind 0 .template
    rcases hmark with rfl | rfl | rfl <;> simp [parseSuffix, hd.nextIs, hd.nextIsIdent, hkind]
  have hpostfix : parsePostfix (.ofDepth (n + 1)) c = .ok (e, d) := by
    simp [parsePostfix, h, TypeExpr.rounds_ofDepth, parseSuffixes, hsuffix, bind, Except.bind]
  have hends : endsAt d = true := by
    rcases hmark with rfl | rfl | rfl <;> simp [endsAt, hpeek, ofMark, Cursor.endsExpr, isPunctOf]
  rw [Expr.parse, hpostfix]
  simp only [hends, if_true]

/-- Words that are no names or begin more than a name. -/
def operandWords : List String :=
  ["async", "function", "true", "false", "null", "new", "await", "typeof", "void", "delete", "yield", "class"]

/-- A name is read before a comma. -/
theorem parse_name (hname : name ∉ operandWords) (hc : c.Shows (ofWord gap name :: ofMark "" "," :: more)) :
    Expr.parse (.ofDepth (n + 1)) c = .ok (.ident name, c.next) := by
  simp only [operandWords, List.mem_cons, List.not_mem_nil, or_false, not_or] at hname
  obtain ⟨hasync, hfunction, htrue, hfalse, hnull, hnew, hawait, htypeof, hvoid, hdelete, hyield, hclass⟩ := hname
  obtain ⟨p, hpeek⟩ := hc.peek?
  have harrow : (c.peekAt? 1).any (fun t => t.isPunct "=>" && !t.newlineBefore) = false :=
    hc.any_peekAt? (q := fun t => t.isPunct "=>" && !t.newlineBefore) (fun _ => rfl) 1
  refine parse_of_parsePrimary (.inl rfl) ?_ hc.next
  simp [parsePrimary, hpeek, ofWord, parseWord, hasync, hfunction, htrue, hfalse, hnull, hnew, hawait, htypeof, hvoid,
    hdelete, hyield, hclass, harrow]

/-! ## Objects -/

/-- The tokens of a property whose key is a string literal and whose value is a name. -/
def propTokens (gap : String) (p : String × String) : List Token :=
  [ofText gap p.1, ofMark "" ":", ofWord " " p.2, ofMark "" ","]

variable {props : List (String × String)} {brace : Token}

/-- Keys that are written in JSON as in a string literal, and values that are names. -/
def ArePlain (props : List (String × String)) : Prop :=
  ∀ p ∈ props, (∀ c ∈ p.1.toList, Json.isPlain c = true) ∧ p.2 ∉ operandWords

/-- Properties are read up to the brace. -/
theorem parseProps_shows {k : Nat} (hprops : ArePlain props) (hbrace : brace.isPunct "\x7d" = true) (hk : props.length < k)
    (hc : c.Shows (props.flatMap (propTokens gap) ++ brace :: more)) :
    ∃ d, parseProps (.ofDepth (n + 2)) k c = .ok (props.map fun p => (p.1, .ident p.2), d) ∧ d.Shows (brace :: more) := by
  induction props generalizing c k with
  | nil =>
    obtain ⟨k, rfl⟩ := Nat.exists_eq_succ_of_ne_zero (Nat.ne_of_gt (Nat.zero_lt_of_lt hk))
    exact ⟨c, by simp [parseProps, hc.nextIs, hbrace], hc⟩
  | cons p props ih =>
    obtain ⟨k, rfl⟩ := Nat.exists_eq_succ_of_ne_zero (Nat.ne_of_gt (Nat.zero_lt_of_lt hk))
    obtain ⟨⟨hkey, hname⟩, hrest⟩ := List.forall_mem_cons.mp hprops
    have hc : c.Shows (ofText gap p.1 :: ofMark "" ":" :: ofWord " " p.2 :: ofMark "" "," ::
        (props.flatMap (propTokens gap) ++ brace :: more)) := hc
    have hvalue := hc.next.next
    obtain ⟨d, hmore, hd⟩ := ih hrest (Nat.lt_of_succ_lt_succ hk) hvalue.next.next
    refine ⟨d, ?_, hd⟩
    obtain ⟨q, hpeek⟩ := hc.peek?
    have hpropertyKey : c.propertyKey = .ok (some p.1, c.next) := by
      rw [Cursor.propertyKey, hpeek]
      exact congrArg (fun key => Except.ok (key, c.next)) (stringValue?_ofText gap hkey)
    have hexpr : (Inner.ofDepth (n + 2)).expr c.next.next = .ok (.ident p.2, c.next.next.next) :=
      parse_name (n := n) hname hvalue
    have hpropValue : parsePropValue (.ofDepth (n + 2)) false (some p.1) c.next = .ok (.ident p.2, c.next.next.next) := by
      rw [parsePropValue, hc.next.eat? rfl]
      exact hexpr
    simp [parseProps, hc.nextIs, hc.nextIsIdent, hc.atEnd, hc.eat?_eq_none, hc.skip_eq_self, hpropertyKey, hpropValue,
      hvalue.next.eat?, hmore, bind, Except.bind]

/-- **An object of names is read** before a semicolon. -/
theorem parse_object {opening : Token} (hprops : ArePlain props) (hopening : opening.isPunct "\x7b" = true)
    (hbrace : brace.isPunct "\x7d" = true) (hn : props.length < n + 2)
    (hc : c.Shows (opening :: (props.flatMap (propTokens gap) ++ brace :: ofMark "" ";" :: more))) :
    ∃ d, Expr.parse (.ofDepth (n + 2)) c = .ok (.object (props.map fun p => (p.1, .ident p.2)), d) ∧
      d.Shows (ofMark "" ";" :: more) := by
  obtain ⟨d, hparse, hd⟩ := parseProps_shows (n := n) hprops hbrace hn hc.next
  refine ⟨d.next, parse_of_parsePrimary (.inr (.inl rfl)) ?_ hd.next, hd.next⟩
  obtain ⟨q, hpeek⟩ := hc.peek?
  obtain ⟨hkind, htext⟩ := Token.isPunct_iff.mp hopening
  simp [parsePrimary, hpeek, hkind, htext, parsePunct, parseObject, hc.expect hopening, TypeExpr.rounds_ofDepth, hparse,
    hd.expect hbrace, bind, Except.bind]

end Expr

/-- A default export of an object is read up to its semicolon. -/
theorem Item.parse_defaultObject {n : Nat} {props : List (String × String)} {opening brace : Token} {propGap : String}
    (hprops : Expr.ArePlain props) (hopening : opening.isPunct "\x7b" = true) (hbrace : brace.isPunct "\x7d" = true)
    (hn : props.length < n + 2)
    (hc : c.Shows (ofWord gap "export" :: ofWord " " "default" :: opening ::
      (props.flatMap (Expr.propTokens propGap) ++ brace :: ofMark "" ";" :: more))) :
    ∃ d, Item.parse (.ofDepth (n + 3)) c = .ok ([.exportDefault (.object (props.map fun p => (p.1, .ident p.2)))], d) ∧
      d.Shows more := by
  have hobject := hc.next.next
  obtain ⟨d, hparse, hd⟩ := Expr.parse_object (n := n) hprops hopening hbrace hn hobject
  refine ⟨d.next, ?_, hd.next⟩
  have hexpr : (Inner.ofDepth (n + 3)).expr c.next.next = .ok (.object (props.map fun p => (p.1, .ident p.2)), d) := hparse
  obtain ⟨hkind, htext⟩ := Token.isPunct_iff.mp hopening
  have hword : ∀ name, opening.isIdent name = false := by
    intro name
    simp [isIdent, hkind]
  have hsemicolon : d.skip ";" = d.next := by simp [Cursor.skip, hd.eat?]
  have hbegins : Item.beginsFunction c.next.next = false := by simp [Item.beginsFunction, hobject.nextIsIdent, hword]
  have hdefault : Item.parseDefault (.ofDepth (n + 3)) c.next.next =
      .ok ([.exportDefault (.object (props.map fun p => (p.1, .ident p.2)))], d.next) := by
    simp [Item.parseDefault, hbegins, hobject.nextIsIdent, hword, hexpr, hsemicolon, Except.map]
  have hpoint : c.nthIs 1 "." = false := hc.nthIs 1 "."
  simp [Item.parse, hc.nextIsIdent, hpoint, Item.parseExport, hc.next.eatIdent?, hdefault]

end AppBundler
