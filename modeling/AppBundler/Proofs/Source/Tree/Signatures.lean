import AppBundler.Proofs.Source.Tree.Operands
/-!
# Signatures that are read as members

Where its tokens stand in a text matters to no parser that succeeds. So a list of signatures is read as the same members
wherever it stands between braces, as long as the rest of each signature, behind its key, is read as some type there.
Between the braces of an interface any of them may come first. Between those of a type a first word `readonly` makes all
of them one mapped type.
-/

namespace AppBundler

/-- The tokens ahead are some others, but for where they stand. -/
def Cursor.Shows (c : Cursor) (ts : List Token) : Prop := c.ahead.map Token.unplaced = ts.map Token.unplaced

namespace Cursor.Shows

variable {c : Cursor} {t : Token} {ts : List Token} {text : String}

theorem length_eq (h : c.Shows ts) : c.ahead.length = ts.length := by
  simpa using congrArg List.length h

theorem uncons (h : c.Shows (t :: ts)) : ∃ u r, c.ahead = u :: r ∧ u.unplaced = t.unplaced ∧ c.next.Shows ts := by
  obtain ⟨u, r, hahead, hu, hr⟩ := List.map_eq_cons_iff.mp h
  exact ⟨u, r, hahead, hu, by simpa [Shows, Cursor.next, hahead] using hr⟩

theorem next (h : c.Shows (t :: ts)) : c.next.Shows ts := by
  obtain ⟨-, -, -, -, hnext⟩ := h.uncons
  exact hnext

/-- The next token is the shown one at some position. -/
theorem peek? (h : c.Shows (t :: ts)) : ∃ p, c.peek? = some { t with start := p } := by
  obtain ⟨u, r, hahead, hu, -⟩ := h.uncons
  obtain ⟨hkind, htext, hgap, hdoc⟩ := Token.unplaced_eq_iff.mp hu
  refine ⟨u.start, ?_⟩
  rw [Cursor.peek?, hahead, List.head?_cons, ← hkind, ← htext, ← hgap, ← hdoc]

/-- What does not depend on positions is told from the shown tokens. -/
theorem any_peekAt? {q : Token → Bool} (hq : ∀ t : Token, q t.unplaced = q t) (h : c.Shows ts) (n : Nat) :
    (c.peekAt? n).any q = ts[n]?.any q := by
  have hsame : (c.ahead[n]?).map Token.unplaced = ts[n]?.map Token.unplaced := by
    rw [← List.getElem?_map, ← List.getElem?_map, h]
  have hany (t? : Option Token) : t?.any q = (t?.map Token.unplaced).any q := by
    cases t? with
    | none => rfl
    | some t => exact (hq t).symm
  rw [Cursor.peekAt?, hany, hsame, ← hany]

theorem nthIs (h : c.Shows ts) (n : Nat) (text : String) : c.nthIs n text = ts[n]?.any (·.isPunct text) :=
  h.any_peekAt? (fun _ => rfl) n

theorem nthIsIdent (h : c.Shows ts) (n : Nat) (text : String) : c.nthIsIdent n text = ts[n]?.any (·.isIdent text) :=
  h.any_peekAt? (fun _ => rfl) n

theorem nthIsKind (h : c.Shows ts) (n : Nat) (kind : TokenKind) :
    c.nthIsKind n kind = ts[n]?.any fun t => t.kind = kind :=
  h.any_peekAt? (fun _ => rfl) n

theorem nextIs (h : c.Shows (t :: ts)) (text : String) : c.nextIs text = t.isPunct text := h.nthIs 0 text

theorem nextIsIdent (h : c.Shows (t :: ts)) (text : String) : c.nextIsIdent text = t.isIdent text := h.nthIsIdent 0 text

theorem newlineNext (h : c.Shows (t :: ts)) : c.newlineNext = t.newlineBefore := by
  obtain ⟨p, hpeek⟩ := h.peek?
  rw [Cursor.newlineNext, hpeek]
  rfl

theorem atEnd (h : c.Shows (t :: ts)) : c.atEnd = false := by
  obtain ⟨u, r, hahead, -, -⟩ := h.uncons
  rw [Cursor.atEnd, hahead, List.isEmpty_cons]

theorem eat? (h : c.Shows (t :: ts)) (ht : t.isPunct text = true) : c.eat? text = some c.next := by
  rw [Cursor.eat?, h.nextIs, ht, if_pos rfl]

theorem eat?_eq_none (h : c.Shows (t :: ts)) (ht : t.isPunct text = false) : c.eat? text = none := by
  rw [Cursor.eat?, h.nextIs, ht, if_neg Bool.false_ne_true]

theorem expect (h : c.Shows (t :: ts)) (ht : t.isPunct text = true) : c.expect text = .ok c.next := by
  rw [Cursor.expect, h.eat? ht]

theorem skip_eq_self (h : c.Shows (t :: ts)) (ht : t.isPunct text = false) : c.skip text = c := by
  rw [Cursor.skip, h.eat?_eq_none ht, Option.getD_none]

theorem eatIdent? (h : c.Shows (t :: ts)) (ht : t.isIdent text = true) : c.eatIdent? text = some c.next := by
  rw [Cursor.eatIdent?, h.nextIsIdent, ht, if_pos rfl]

theorem eatIdent?_eq_none (h : c.Shows (t :: ts)) (ht : t.isIdent text = false) : c.eatIdent? text = none := by
  rw [Cursor.eatIdent?, h.nextIsIdent, ht, if_neg Bool.false_ne_true]

theorem skipIdent_eq_self (h : c.Shows (t :: ts)) (ht : t.isIdent text = false) : c.skipIdent text = c := by
  rw [Cursor.skipIdent, h.eatIdent?_eq_none ht, Option.getD_none]

theorem identifier (h : c.Shows (t :: ts)) (ht : t.kind = .ident) : c.identifier = .ok (t.text, c.next) := by
  obtain ⟨p, hpeek⟩ := h.peek?
  simp only [Cursor.identifier, hpeek, ht, if_true]

theorem skipAnglesIfNext (h : c.Shows (t :: ts)) (ht : t.isPunct "<" = false) : c.skipAnglesIfNext = .ok c := by
  rw [Cursor.skipAnglesIfNext, h.nextIs, ht, if_neg Bool.false_ne_true]

end Cursor.Shows

/-- Whether a token may be a key. -/
def Token.isKey (t : Token) : Bool := t.kind = .ident || t.kind = .string || t.kind = .number

theorem Token.not_isPunct_of_isKey {t : Token} (h : t.isKey = true) (text : String) : t.isPunct text = false := by
  simp only [isKey, Bool.or_eq_true, decide_eq_true_eq] at h
  rcases h with (h | h) | h <;> simp [isPunct, h]

theorem Token.isKey_of_isIdent {t : Token} {text : String} (h : t.isIdent text = true) : t.isKey = true := by
  simp only [isIdent, Bool.and_eq_true, decide_eq_true_eq] at h
  simp [isKey, h.1]

theorem Token.isPunctOf_of_unplaced {t u : Token} (h : t.unplaced = u.unplaced) (texts : List String) :
    t.isPunctOf texts = u.isPunctOf texts := by
  obtain ⟨hkind, htext, -⟩ := Token.unplaced_eq_iff.mp h
  rw [isPunctOf, isPunctOf, hkind, htext]

theorem Cursor.Shows.keyAfterNext {c : Cursor} {t u : Token} {ts : List Token} (h : c.Shows (t :: u :: ts)) :
    c.keyAfterNext = u.isKey := by
  have hkind (kind : TokenKind) : c.nthIsKind 1 kind = decide (u.kind = kind) := h.nthIsKind 1 kind
  rw [Cursor.keyAfterNext, hkind, hkind, hkind, Token.isKey]

namespace TypeExpr

variable {c : Cursor} {n k : Nat} {next brace : Token} {more : List Token}

/-! ## One signature -/

/-- Wherever the tokens stand and whatever follows, they are read as all of a signature behind its key, up to the next
token. -/
def ReadsAs (body : List Token) (next : Token) (type : Option TypeExpr) (method : Bool) : Prop :=
  ∀ ⦃n more c⦄, (body ++ next :: more).length ≤ n → Cursor.Shows c (body ++ next :: more) →
    ∃ d, memberType (.ofDepth n) c = .ok (type, method, d) ∧ d.Shows (next :: more)

/-- The tokens of a property or method signature, and what the rest behind the key is read as. -/
structure Signature where
  readonly : Option Token
  key : Token
  /-- The question mark of an optional member. -/
  mark : Option Token
  /-- A type with its colon, or the parameters of a method and its result. -/
  body : List Token
  separator : Option Token
  type : Option TypeExpr
  method : Bool

namespace Signature

variable {s : Signature}

/-- The tokens behind the key. -/
def rest (s : Signature) : List Token := s.mark.toList ++ (s.body ++ s.separator.toList)

/-- The tokens. -/
def tokens (s : Signature) : List Token := s.readonly.toList ++ s.key :: s.rest

/-- The first token. -/
def first (s : Signature) : Token := s.readonly.getD s.key

/-- The token behind the key. -/
def behind (s : Signature) (next : Token) : Token := s.rest.head?.getD next

/-- The member that is told. -/
def member (s : Signature) : Member :=
  ⟨if s.key.kind = .string then s.key.stringValue?.getD "" else s.key.text, s.mark.isSome, s.type, s.first.doc, s.method⟩

/-- The parts are those of a property or method signature, which the next token ends: it is no index, call or construct
signature and no accessor. -/
structure IsRead (s : Signature) (next : Token) : Prop where
  readonly : ∀ t ∈ s.readonly, t.isIdent "readonly" = true
  key : s.key.isKey = true
  mark : ∀ t ∈ s.mark, t.isPunct "?" = true
  separator : ∀ t ∈ s.separator, (t.isPunct ";" || t.isPunct ",") = true
  /-- Without a separator a member ends with its line or before the brace. -/
  ends : s.separator = none → next.isPunct "\x7d" = true ∨ next.newlineBefore = true
  unmarked : s.mark = none → (s.behind next).isPunct "?" = false
  unmodified : s.readonly = none → s.key.isIdent "readonly" = true →
    ((s.behind next).isKey || (s.behind next).isPunct "[") = false
  notAccessor : (s.key.isIdent "get" || s.key.isIdent "set") = true → (s.behind next).isKey = false
  notConstructor : s.key.isIdent "new" = true → ((s.behind next).isPunct "(" || (s.behind next).isPunct "<") = false
  body : ReadsAs s.body (s.separator.getD next) s.type s.method

theorem tokens_append (s : Signature) (next : Token) (more : List Token) :
    ∃ r, s.key :: (s.rest ++ next :: more) = s.key :: s.behind next :: r := by
  rw [behind]
  cases s.rest with
  | nil => exact ⟨more, rfl⟩
  | cons t r => exact ⟨r ++ next :: more, rfl⟩

/-- A modifier is passed, and nothing else in front of the key. -/
theorem IsRead.skipReadonly (h : s.IsRead next) (hc : c.Shows (s.tokens ++ next :: more)) :
    (skipReadonly c).Shows (s.key :: (s.rest ++ next :: more)) := by
  have hmodifier := h.readonly
  rw [tokens] at hc
  cases hreadonly : s.readonly with
  | some t =>
    rw [hreadonly] at hc hmodifier
    have hword := hmodifier t rfl
    have hc : c.Shows (t :: s.key :: (s.rest ++ next :: more)) := hc
    rw [TypeExpr.skipReadonly, hc.nextIsIdent, hword, hc.keyAfterNext, h.key]
    exact hc.next
  | none =>
    rw [hreadonly] at hc
    have hc : c.Shows (s.key :: (s.rest ++ next :: more)) := hc
    obtain ⟨r, hr⟩ := s.tokens_append next more
    have hself : TypeExpr.skipReadonly c = c := by
      have hc := hc
      rw [hr] at hc
      rw [TypeExpr.skipReadonly, hc.nextIsIdent, hc.keyAfterNext, hc.nthIs]
      refine if_neg fun hkey => ?_
      rw [Bool.and_eq_true] at hkey
      rw [List.getElem?_cons_succ, List.getElem?_cons_zero, Option.any_some, h.unmodified hreadonly hkey.1] at hkey
      exact Bool.false_ne_true hkey.2
    rwa [hself]

theorem IsRead.not_isSignature (h : s.IsRead next) (hc : c.Shows (s.key :: (s.rest ++ next :: more))) :
    isSignature c = false := by
  obtain ⟨r, hr⟩ := s.tokens_append next more
  rw [hr] at hc
  have hbehind (text : String) : c.nthIs 1 text = (s.behind next).isPunct text := hc.nthIs 1 text
  rw [isSignature, hc.nextIs, hc.nextIs, hc.nextIs, hc.nextIsIdent, hc.nextIsIdent, hc.nextIsIdent, hc.keyAfterNext,
    hbehind, hbehind, Token.not_isPunct_of_isKey h.key, Token.not_isPunct_of_isKey h.key, Token.not_isPunct_of_isKey h.key]
  have haccessor := h.notAccessor
  have hconstructor := h.notConstructor
  cases hword : s.key.isIdent "get" || s.key.isIdent "set" <;> cases hnew : s.key.isIdent "new" <;>
    simp_all

theorem IsRead.memberKey (h : s.IsRead next) (hc : c.Shows (s.key :: more)) :
    memberKey c = .ok (s.member.key, c.next) := by
  obtain ⟨p, hpeek⟩ := hc.peek?
  rw [TypeExpr.memberKey, hpeek, member]
  have hkey := h.key
  simp only [Token.isKey, Bool.or_eq_true, decide_eq_true_eq] at hkey
  rcases hkey with (hkind | hkind) | hkind <;> simp [hkind, Token.stringValue?]

/-- The mark is passed if there is one. -/
theorem IsRead.skipMark (h : s.IsRead next) (hc : c.Shows (s.rest ++ next :: more)) :
    c.nextIs "?" = s.mark.isSome ∧ (c.skip "?").Shows (s.body ++ (s.separator.toList ++ next :: more)) := by
  have hunmarked := h.unmarked
  have hmark := h.mark
  cases hshape : s.mark with
  | some t =>
    rw [rest, hshape] at hc
    have hc : c.Shows (t :: ((s.body ++ s.separator.toList) ++ next :: more)) := hc
    have ht := hmark t hshape
    rw [Cursor.skip, hc.nextIs, hc.eat? ht, ht, Option.getD_some, ← List.append_assoc]
    exact ⟨rfl, hc.next⟩
  | none =>
    obtain ⟨r, hr⟩ := s.tokens_append next more
    have hbehind : c.Shows (s.behind next :: r) := by
      rw [← (List.cons.inj hr).2]
      exact hc
    rw [hbehind.nextIs, hbehind.skip_eq_self (hunmarked hshape), hunmarked hshape]
    rw [rest, hshape] at hc
    rw [← List.append_assoc]
    exact ⟨rfl, hc⟩

/-- The separator is passed if there is one, and else none is missed. -/
theorem IsRead.separated (h : s.IsRead next) (hnext : (next.isPunct ";" || next.isPunct ",") = false)
    (hc : c.Shows (s.separator.toList ++ next :: more)) :
    (c.nextIs ";" || c.nextIs ",") = s.separator.isSome ∧
      (if s.separator.isSome = true then c.next else c).Shows (next :: more) := by
  have hseparator := h.separator
  cases hshape : s.separator with
  | some t =>
    rw [hshape] at hc hseparator
    have hc : c.Shows (t :: next :: more) := hc
    rw [hc.nextIs, hc.nextIs, hseparator t rfl]
    exact ⟨rfl, hc.next⟩
  | none =>
    rw [hshape] at hc
    have hc : c.Shows (next :: more) := hc
    rw [hc.nextIs, hc.nextIs, hnext]
    exact ⟨rfl, hc⟩

theorem IsRead.isKey_first (h : s.IsRead next) : s.first.isKey = true := by
  rw [first]
  cases hreadonly : s.readonly with
  | some t => exact Token.isKey_of_isIdent (h.readonly t hreadonly)
  | none => exact h.key

theorem tokens_eq_cons (s : Signature) : ∃ r, s.tokens = s.first :: r := by
  rw [tokens, first]
  cases s.readonly with
  | some t => exact ⟨_, rfl⟩
  | none => exact ⟨_, rfl⟩

/-- **A signature is read as its member**, and the others behind it. -/
theorem IsRead.parseMembers (h : s.IsRead next) (hnext : (next.isPunct ";" || next.isPunct ",") = false)
    (hn : (s.tokens ++ next :: more).length ≤ n) (hc : c.Shows (s.tokens ++ next :: more)) :
    ∃ d, d.Shows (next :: more) ∧
      parseMembers (.ofDepth n) (k + 1) c = (parseMembers (.ofDepth n) k d).map fun (ms, e) => (s.member :: ms, e) := by
  have hkey := h.skipReadonly hc
  obtain ⟨hmark, hbody⟩ := h.skipMark hkey.next
  obtain ⟨r, hr⟩ : ∃ r, s.separator.toList ++ next :: more = s.separator.getD next :: r := by
    cases s.separator with
    | some t => exact ⟨_, rfl⟩
    | none => exact ⟨_, rfl⟩
  have hlength : (s.body ++ s.separator.getD next :: r).length ≤ n := by
    rw [← hr]
    simp only [tokens, rest, List.length_append, List.length_cons] at hn ⊢
    omega
  rw [hr] at hbody
  obtain ⟨d, htype, hd⟩ := h.body hlength hbody
  rw [← hr] at hd
  obtain ⟨hseparated, hbehind⟩ := h.separated hnext hd
  refine ⟨_, hbehind, ?_⟩
  -- the first token is none that ends the members or stands between them
  obtain ⟨q, hq⟩ := s.tokens_eq_cons
  rw [hq] at hc
  have hc : c.Shows (s.first :: (q ++ next :: more)) := hc
  have hfirst (text : String) : c.nextIs text = false :=
    (hc.nextIs text).trans (Token.not_isPunct_of_isKey h.isKey_first text)
  obtain ⟨p, hpeek⟩ := hc.peek?
  have hended : (!s.separator.isSome && !next.isPunct "\x7d" && !next.newlineBefore) = false := by
    cases hshape : s.separator with
    | some t => rfl
    | none => rcases h.ends hshape with hend | hend <;> simp [hend]
  rw [← hbehind.nextIs, ← hbehind.newlineNext] at hended
  rw [TypeExpr.parseMembers, hfirst, hfirst, hfirst, hc.atEnd]
  simp only [Bool.false_eq_true, if_false, Bool.or_self, h.not_isSignature hkey, h.memberKey hkey, hmark, htype, hseparated,
    hended, hpeek, bind, Except.bind]
  cases TypeExpr.parseMembers (.ofDepth n) k (if s.separator.isSome = true then d.next else d) with
  | error e => rfl
  | ok more => rfl

/-! ## Lists of signatures -/

/-- The first token of some signatures, or else the brace behind them. -/
def firstOf : List Signature → Token → Token
  | [], brace => brace
  | s :: _, _ => s.first

/-- The signatures are those of members up to a brace. -/
def AreRead : List Signature → Token → Prop
  | [], _ => True
  | s :: ss, brace => s.IsRead (firstOf ss brace) ∧ AreRead ss brace

variable {ss : List Signature}

theorem exists_firstOf (ss : List Signature) (brace : Token) (more : List Token) :
    ∃ r, ss.flatMap tokens ++ brace :: more = firstOf ss brace :: r := by
  cases ss with
  | nil => exact ⟨more, rfl⟩
  | cons s ss =>
    obtain ⟨r, hr⟩ := s.tokens_eq_cons
    exact ⟨r ++ (ss.flatMap tokens ++ brace :: more), by rw [List.flatMap_cons, hr]; simp [firstOf]⟩

theorem length_le_tokens (ss : List Signature) : ss.length ≤ (ss.flatMap tokens).length := by
  induction ss with
  | nil => exact Nat.le_refl 0
  | cons s ss ih =>
    rw [List.flatMap_cons, List.length_append, tokens, List.length_append, List.length_cons, List.length_cons]
    omega

/-- Signatures begin with a key, or there are none. -/
theorem AreRead.firstOf_cases (h : AreRead ss brace) : firstOf ss brace = brace ∨ (firstOf ss brace).isKey = true := by
  cases ss with
  | nil => exact Or.inl rfl
  | cons s ss => exact Or.inr h.1.isKey_first

theorem AreRead.firstOf_isPunct (h : AreRead ss brace) (hbrace : brace.isPunct "\x7d" = true) {text : String}
    (htext : text ≠ "\x7d") : (firstOf ss brace).isPunct text = false := by
  rcases h.firstOf_cases with heq | hkey
  · simp [heq, Token.isPunct, (Token.isPunct_iff.mp hbrace).2, Ne.symm htext]
  · exact Token.not_isPunct_of_isKey hkey text

/-- **Signatures are read as their members**, up to the brace behind them. -/
theorem AreRead.parseMembers (h : AreRead ss brace) (hbrace : brace.isPunct "\x7d" = true) (hk : ss.length < k)
    (hn : (ss.flatMap tokens ++ brace :: more).length ≤ n) (hc : c.Shows (ss.flatMap tokens ++ brace :: more)) :
    ∃ d, parseMembers (.ofDepth n) k c = .ok (ss.map member, d) ∧ d.Shows (brace :: more) := by
  induction ss generalizing k c with
  | nil =>
    obtain ⟨k, rfl⟩ := Nat.exists_eq_succ_of_ne_zero (Nat.ne_of_gt hk)
    have hend : c.nextIs "\x7d" = true := (hc.nextIs _).trans hbrace
    exact ⟨c, by rw [TypeExpr.parseMembers, if_pos hend, List.map_nil], hc⟩
  | cons s ss ih =>
    obtain ⟨k, rfl⟩ := Nat.exists_eq_succ_of_ne_zero (Nat.ne_of_gt (Nat.zero_lt_of_lt hk))
    obtain ⟨hs, hss⟩ := h
    obtain ⟨r, hr⟩ := exists_firstOf ss brace more
    rw [List.flatMap_cons, List.append_assoc, hr] at hc hn
    have hseparator : ((firstOf ss brace).isPunct ";" || (firstOf ss brace).isPunct ",") = false := by
      rw [hss.firstOf_isPunct hbrace (by decide), hss.firstOf_isPunct hbrace (by decide), Bool.or_false]
    obtain ⟨d, hd, hstep⟩ := hs.parseMembers (k := k) hseparator hn hc
    rw [← hr] at hd hn
    obtain ⟨e, hmore, he⟩ := ih hss (Nat.lt_of_succ_lt_succ hk) (by rw [List.length_append] at hn; omega) hd
    exact ⟨e, by rw [hstep, hmore]; rfl, he⟩

/-- The members of an interface are those of the signatures between its braces. -/
theorem AreRead.parseObject (h : AreRead ss brace) (hbrace : brace.isPunct "\x7d" = true) {opening : Token}
    (hopening : opening.isPunct "\x7b" = true) (hn : (opening :: (ss.flatMap tokens ++ brace :: more)).length ≤ n)
    (hc : c.Shows (opening :: (ss.flatMap tokens ++ brace :: more))) :
    ∃ d, parseObject (.ofDepth n) c = .ok (ss.map member, d) ∧ d.Shows more := by
  have hrounds : ss.length < (Inner.ofDepth n).rounds := by
    have hlength := length_le_tokens ss
    rw [rounds_ofDepth]
    simp only [List.length_cons, List.length_append] at hn
    omega
  obtain ⟨d, hmembers, hd⟩ := h.parseMembers hbrace hrounds (Nat.le_of_succ_le hn) hc.next
  exact ⟨d.next, by simp [TypeExpr.parseObject, hc.expect hopening, hmembers, hd.expect hbrace, bind, Except.bind], hd.next⟩

end Signature

/-! ## Types in their places -/

/-- Wherever the tokens stand and whatever follows, they are read as a type up to the next token. -/
def Denotes (ts : List Token) (next : Token) (t : TypeExpr) : Prop :=
  ∀ ⦃n more c⦄, (ts ++ next :: more).length ≤ n → Cursor.Shows c (ts ++ next :: more) →
    ∃ d, parse (.ofDepth n) c = .ok (t, d) ∧ d.Shows (next :: more)

/-- The punctuators that end a type. -/
def typeEnds : List String := [")", ";", ",", "\x7d"]

/-- A token that a type may be followed by, with which it ends. -/
def EndsType (next : Token) : Prop := next.kind = .punct ∧ next.text ∈ typeEnds

theorem EndsType.not_isPunct (h : EndsType next) {text : String} (htext : text ∉ typeEnds) : next.isPunct text = false := by
  rw [Token.isPunct, Bool.and_eq_false_imp]
  rintro -
  exact decide_eq_false fun heq => htext (heq ▸ h.2)

variable {t : TypeExpr} {first : Token} {ts : List Token}

/-- A type without operators and suffixes is read where any type may stand. -/
theorem denotes_of_parsePrimary (hnext : EndsType next) (hfirst : first.isPunct "|" = false ∧ first.isPunct "&" = false)
    (h : ∀ ⦃n more c⦄, (first :: (ts ++ next :: more)).length ≤ n → Cursor.Shows c (first :: (ts ++ next :: more)) →
      ∃ d, parsePrimary (.ofDepth n) c = .ok (t, d) ∧ d.Shows (next :: more)) : Denotes (first :: ts) next t := by
  intro n more c hn hc
  obtain ⟨d, hprimary, hd⟩ := h hn hc
  obtain ⟨m, rfl⟩ : ∃ m, n = m + 1 := ⟨n - 1, by rw [List.length_append] at hn; simp at hn; omega⟩
  refine ⟨d, ?_, hd⟩
  have hc : c.Shows (first :: (ts ++ next :: more)) := hc
  have hbracket : next.isPunct "[" = false := hnext.not_isPunct (by decide)
  have hand : next.isPunct "&" = false := hnext.not_isPunct (by decide)
  have hbar : next.isPunct "|" = false := hnext.not_isPunct (by decide)
  have hpostfix : parsePostfix (.ofDepth (m + 1)) c = .ok (t, d) := by
    simp only [parsePostfix, hprimary, bind, Except.bind, rounds_ofDepth, parseSuffixes, hd.nextIs, hbracket,
      Bool.false_and, Bool.false_eq_true, if_false]
  have hintersection : parseIntersection (.ofDepth (m + 1)) c = .ok (t, d) := by
    simp only [parseIntersection, hc.skip_eq_self hfirst.2, hpostfix, bind, Except.bind, rounds_ofDepth, parseOperands,
      hd.eat?_eq_none hand]
  have hunion : parseUnion (.ofDepth (m + 1)) c = .ok (t, d) := by
    simp only [parseUnion, hc.skip_eq_self hfirst.1, hintersection, bind, Except.bind, rounds_ofDepth, parseOperands,
      hd.eat?_eq_none hbar]
  have hextends : d.nextIsIdent "extends" = false := by
    rw [hd.nextIsIdent, Token.isIdent, hnext.1]
    rfl
  simp only [parse, hunion, bind, Except.bind, hextends, Bool.false_and, Bool.false_eq_true, if_false]

variable {ss : List Signature} {opening : Token}

/-- The first token behind the brace tells a mapped type from members. -/
theorem isMapped_of_shows (h : Signature.AreRead ss brace) (hbrace : brace.isPunct "\x7d" = true) {r : List Token}
    (hc : c.Shows (opening :: Signature.firstOf ss brace :: r)) :
    isMapped c = (Signature.firstOf ss brace).isIdent "readonly" := by
  have hnext (text : String) : c.nthIs 1 text = (Signature.firstOf ss brace).isPunct text := hc.nthIs 1 text
  have hword : c.nthIsIdent 1 "readonly" = (Signature.firstOf ss brace).isIdent "readonly" := hc.nthIsIdent 1 "readonly"
  rw [isMapped, hword, hnext, hnext, hnext, h.firstOf_isPunct hbrace (by decide), h.firstOf_isPunct hbrace (by decide),
    h.firstOf_isPunct hbrace (by decide), Bool.false_and, Bool.or_false, Bool.or_false, Bool.or_false]

/-- **Between the braces of a type** signatures are read as its members, unless the word `readonly` comes first. -/
theorem denotes_object (h : Signature.AreRead ss brace) (hbrace : brace.isPunct "\x7d" = true)
    (hopening : opening.isPunct "\x7b" = true)
    (hfirst : (Signature.firstOf ss brace).isIdent "readonly" = false) (hnext : EndsType next) :
    Denotes (opening :: (ss.flatMap Signature.tokens ++ [brace])) next (.object (ss.map Signature.member)) := by
  obtain ⟨hkind, htext⟩ := Token.isPunct_iff.mp hopening
  refine denotes_of_parsePrimary hnext (by simp [Token.isPunct, htext]) fun n more c hn hc => ?_
  rw [List.append_assoc, List.singleton_append] at hn hc
  obtain ⟨r, hr⟩ := Signature.exists_firstOf ss brace (next :: more)
  have hplain : isMapped c = false := by
    rw [hr] at hc
    rw [isMapped_of_shows h hbrace hc, hfirst]
  obtain ⟨d, hobject, hd⟩ := h.parseObject hbrace hopening hn hc
  obtain ⟨p, hpeek⟩ := hc.peek?
  refine ⟨d, ?_, hd⟩
  simp [parsePrimary, hpeek, hkind, htext, parsePunct, hplain, hobject, bind, Except.bind]

/-! ## Mapped types -/

/-- Whether all brackets in some tokens are closed again, inside `depth` open ones. -/
def closesGroups : Nat → List Token → Bool
  | depth, [] => depth = 0
  | depth, t :: ts =>
    if t.isPunctOf Cursor.openers then closesGroups (depth + 1) ts
    else if t.isPunctOf Cursor.closers then 0 < depth && closesGroups (depth - 1) ts
    else closesGroups depth ts

/-- A group ends with the bracket behind what closes its own. -/
theorem closeGroups_shows {depth : Nat} (h : closesGroups depth ts = true) (hbrace : brace.isPunct "\x7d" = true)
    {before : Option Token} {us : List Token} (hus : Cursor.Shows ⟨before, us⟩ (ts ++ brace :: more)) :
    ∃ d, Cursor.closeGroups (depth + 1) before us = .ok d ∧ d.Shows more := by
  induction ts generalizing depth before us with
  | nil =>
    obtain ⟨u, r, rfl, hu, hr⟩ := hus.uncons
    obtain rfl : depth = 0 := by simpa [closesGroups] using h
    obtain ⟨hkind, htext⟩ := Token.isPunct_iff.mp hbrace
    have hopen : u.isPunctOf Cursor.openers = false := by
      rw [Token.isPunctOf_of_unplaced hu, Token.isPunctOf, hkind, htext]
      rfl
    have hclose : u.isPunctOf Cursor.closers = true := by
      rw [Token.isPunctOf_of_unplaced hu, Token.isPunctOf, hkind, htext]
      rfl
    exact ⟨_, by rw [Cursor.closeGroups, hopen, hclose]; rfl, hr⟩
  | cons t ts ih =>
    obtain ⟨u, r, rfl, hu, hr⟩ := hus.uncons
    rw [closesGroups] at h
    rw [Cursor.closeGroups, Token.isPunctOf_of_unplaced hu, Token.isPunctOf_of_unplaced hu]
    split at h
    case isTrue hopen =>
      rw [if_pos hopen]
      exact ih h hr
    split at h
    case isTrue hopen hclose =>
      rw [Bool.and_eq_true, decide_eq_true_eq] at h
      obtain ⟨depth, rfl⟩ : ∃ k, depth = k + 1 := ⟨depth - 1, by omega⟩
      rw [if_neg hopen, if_pos hclose, if_neg (by omega)]
      exact ih h.2 hr
    case isFalse hopen hclose =>
      rw [if_neg hopen, if_neg hclose]
      exact ih h hr

theorem skipGroup_shows (h : closesGroups 0 ts = true) {opening : Token} (hopening : opening.isPunct "\x7b" = true)
    (hbrace : brace.isPunct "\x7d" = true) (hc : c.Shows (opening :: (ts ++ brace :: more))) :
    ∃ d, c.skipGroup = .ok d ∧ d.Shows more := by
  obtain ⟨hkind, htext⟩ := Token.isPunct_iff.mp hopening
  obtain ⟨u, us, hahead, hu, hus⟩ := hc.uncons
  have hopen : u.isPunctOf Cursor.openers = true := by
    rw [Token.isPunctOf_of_unplaced hu, Token.isPunctOf, hkind, htext]
    rfl
  have hnext : c.next = ⟨some u, us⟩ := by rw [Cursor.next, hahead]
  rw [hnext] at hus
  obtain ⟨d, hclosed, hd⟩ := closeGroups_shows h hbrace hus
  exact ⟨d, by rw [Cursor.skipGroup, hahead, Cursor.closeGroups, if_pos hopen, hclosed], hd⟩

/-- **With `readonly` first** all between the braces is one mapped type. -/
theorem denotes_mapped (h : Signature.AreRead ss brace) (hbrace : brace.isPunct "\x7d" = true)
    (hopening : opening.isPunct "\x7b" = true)
    (hfirst : (Signature.firstOf ss brace).isIdent "readonly" = true)
    (hgroups : closesGroups 0 (ss.flatMap Signature.tokens) = true) (hnext : EndsType next) :
    Denotes (opening :: (ss.flatMap Signature.tokens ++ [brace])) next .other := by
  obtain ⟨hkind, htext⟩ := Token.isPunct_iff.mp hopening
  refine denotes_of_parsePrimary hnext (by simp [Token.isPunct, htext]) fun n more c hn hc => ?_
  rw [List.append_assoc, List.singleton_append] at hn hc
  obtain ⟨r, hr⟩ := Signature.exists_firstOf ss brace (next :: more)
  have hmapped : isMapped c = true := by
    rw [hr] at hc
    rw [isMapped_of_shows h hbrace hc, hfirst]
  obtain ⟨d, hgroup, hd⟩ := skipGroup_shows hgroups hopening hbrace hc
  obtain ⟨p, hpeek⟩ := hc.peek?
  refine ⟨d, ?_, hd⟩
  simp [parsePrimary, hpeek, hkind, htext, parsePunct, hmapped, hgroup, bind, Except.bind]

end TypeExpr

end AppBundler
