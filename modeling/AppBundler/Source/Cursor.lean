import AppBundler.Source.Token
import AppBundler.Source.Error
/-!
# Places in a list of tokens

A cursor knows the token before it and the tokens ahead. Parsers take a cursor and return the one after what
they read; a parser that gives up leaves its caller with the cursor it had.
-/

namespace AppBundler

/-- A place in a list of tokens. -/
structure Cursor where
  before : Option Token
  ahead : List Token

/-- The outcome of a parser. -/
abbrev Parsed := Except SyntaxError

namespace Cursor

/-- The place before the first token. -/
def start (tokens : List Token) : Cursor := ⟨none, tokens⟩

/-- The place after the next token; the end stays the end. -/
def next (c : Cursor) : Cursor :=
  match c.ahead with
  | [] => c
  | t :: r => ⟨some t, r⟩

/-- The next token. -/
def peek? (c : Cursor) : Option Token := c.ahead.head?

/-- The token after `n` others. -/
def peekAt? (c : Cursor) (n : Nat) : Option Token := c.ahead[n]?

/-- Whether no token is left. -/
def atEnd (c : Cursor) : Bool := c.ahead.isEmpty

/-- Whether the token after `n` others is a certain punctuator. -/
def nthIs (c : Cursor) (n : Nat) (punct : String) : Bool := (c.peekAt? n).any (·.isPunct punct)

/-- Whether the token after `n` others is a certain identifier. -/
def nthIsIdent (c : Cursor) (n : Nat) (name : String) : Bool := (c.peekAt? n).any (·.isIdent name)

/-- Whether the token after `n` others is of a class. -/
def nthIsKind (c : Cursor) (n : Nat) (kind : TokenKind) : Bool :=
  (c.peekAt? n).any fun t => t.kind = kind

/-- Whether the next token is a certain punctuator. -/
def nextIs (c : Cursor) (punct : String) : Bool := c.nthIs 0 punct

/-- Whether the next token is a certain identifier. -/
def nextIsIdent (c : Cursor) (name : String) : Bool := c.nthIsIdent 0 name

/-- Whether the next token is of a class. -/
def nextIsKind (c : Cursor) (kind : TokenKind) : Bool := c.nthIsKind 0 kind

/-- Whether a line break stands before the next token. -/
def newlineNext (c : Cursor) : Bool := c.peek?.any (·.newlineBefore)

/-- The place after a certain punctuator, if it comes next. -/
def eat? (c : Cursor) (punct : String) : Option Cursor := if c.nextIs punct then some c.next else none

/-- Passes a certain punctuator if it comes next. -/
def skip (c : Cursor) (punct : String) : Cursor := (c.eat? punct).getD c

/-- The place after a certain identifier, if it comes next. -/
def eatIdent? (c : Cursor) (name : String) : Option Cursor :=
  if c.nextIsIdent name then some c.next else none

/-- Passes a certain identifier if it comes next. -/
def skipIdent (c : Cursor) (name : String) : Cursor := (c.eatIdent? name).getD c

/-- The error that another token was expected here. At the end it stands behind the last token. -/
def unexpected (c : Cursor) (expected : Expectation) : SyntaxError :=
  match c.ahead, c.before with
  | t :: _, _ => ⟨.unexpected expected (some t.text), t.start.line, t.start.column⟩
  | [], some t => ⟨.unexpected expected none, t.start.line, t.start.column + t.text.length⟩
  | [], none => ⟨.unexpected expected none, 1, 1⟩

/-- The error that a recursion was cut off here. -/
def tooDeep (c : Cursor) : SyntaxError :=
  match c.ahead with
  | t :: _ => ⟨.tooDeep, t.start.line, t.start.column⟩
  | [] => ⟨.tooDeep, 1, 1⟩

/-- Passes a punctuator that has to come next. -/
def expect (c : Cursor) (punct : String) : Parsed Cursor :=
  match c.eat? punct with
  | some c => .ok c
  | none => .error (c.unexpected (.punct punct))

/-- Takes an identifier. -/
def identifier (c : Cursor) : Parsed (String × Cursor) :=
  match c.peek? with
  | some t => if t.kind = .ident then .ok (t.text, c.next) else .error (c.unexpected .identifier)
  | none => .error (c.unexpected .identifier)

/-- The points and identifiers that continue a name. -/
def nameParts (before : Option Token) : List Token → String × Cursor
  | dot :: t :: r =>
    if dot.isPunct "." && t.kind = .ident then
      let (rest, c) := nameParts (some t) r
      ("." ++ t.text ++ rest, c)
    else ("", ⟨before, dot :: t :: r⟩)
  | ts => ("", ⟨before, ts⟩)

/-- A name with its parts after points. -/
def qualifiedName (c : Cursor) : Parsed (String × Cursor) := do
  let (name, c) ← c.identifier
  let (rest, c) := nameParts c.before c.ahead
  .ok (name ++ rest, c)

/-! ## Passing over what is not read -/

/-- The brackets that open a group. -/
def openers : List String := ["(", "[", "\x7b"]

/-- The brackets that close a group. -/
def closers : List String := [")", "]", "\x7d"]

/-- Passes tokens until as many groups are closed as are open, at least up to one closing bracket. -/
def closeGroups (depth : Nat) (before : Option Token) : List Token → Parsed Cursor
  | [] => .error ((⟨before, []⟩ : Cursor).unexpected .closedBrackets)
  | t :: r =>
    if t.isPunctOf openers then closeGroups (depth + 1) (some t) r
    else if t.isPunctOf closers then
      if depth ≤ 1 then .ok ⟨some t, r⟩ else closeGroups (depth - 1) (some t) r
    else closeGroups depth (some t) r

/-- Passes a group in brackets. -/
def skipGroup (c : Cursor) : Parsed Cursor := closeGroups 0 c.before c.ahead

/-- Passes tokens until as many angle brackets are closed as are open; `inner` groups are open inside, where
angle brackets do not count. -/
def closeAngles (depth inner : Nat) (before : Option Token) : List Token → Parsed Cursor
  | [] =>
    .error ((⟨before, []⟩ : Cursor).unexpected (if inner = 0 then .closedAngle else .closedBrackets))
  | t :: r =>
    if inner = 0 then
      if t.isPunct "<" then closeAngles (depth + 1) 0 (some t) r
      else if t.isPunct ">" then
        if depth ≤ 1 then .ok ⟨some t, r⟩ else closeAngles (depth - 1) 0 (some t) r
      else if t.isPunctOf openers then closeAngles depth 1 (some t) r
      else if t.isPunct ";" || t.isPunctOf closers then
        .error ((⟨before, t :: r⟩ : Cursor).unexpected .closedAngle)
      else closeAngles depth 0 (some t) r
    else if t.isPunctOf openers then closeAngles depth (inner + 1) (some t) r
    else if t.isPunctOf closers then closeAngles depth (inner - 1) (some t) r
    else closeAngles depth inner (some t) r

/-- Passes type parameters or arguments in angle brackets. -/
def skipAngles (c : Cursor) : Parsed Cursor := closeAngles 0 0 c.before c.ahead

/-- Passes type parameters or arguments if they come next. -/
def skipAnglesIfNext (c : Cursor) : Parsed Cursor := if c.nextIs "<" then c.skipAngles else .ok c

/-- Identifiers that still want an operand when they end a line. -/
def wantingKeywords : List String :=
  ["typeof", "new", "await", "yield", "as", "satisfies", "extends", "keyof", "in", "of",
    "instanceof", "void", "delete", "export", "default", "const", "let", "var", "async", "from",
    "import", "type"]

/-- Identifiers that go on with the expression before them when they begin a line. -/
def continuingKeywords : List String := ["as", "satisfies", "instanceof", "in", "of", "extends"]

/-- Whether a statement may end with a token where a line ends. -/
def endsLine (p : Token) : Bool :=
  match p.kind with
  | .punct => [")", "]", "\x7d", "++", "--"].contains p.text
  | .ident => !wantingKeywords.contains p.text
  | _ => true

/-- Whether a statement may begin with a token where a line begins. -/
def beginsLine (t : Token) : Bool :=
  match t.kind with
  | .punct => false
  | .ident => !continuingKeywords.contains t.text
  | _ => true

/-- Whether a statement ends between two tokens because a line ends there. -/
def breaksBetween (before : Option Token) (t : Token) : Bool :=
  match before with
  | none => false
  | some p => t.newlineBefore && endsLine p && beginsLine t

/-- Whether a statement ends before the next token because a line ends there. -/
def atBreak (c : Cursor) : Bool := c.peek?.any (breaksBetween c.before)

/-- Passes the rest of a statement, with its semicolon. The first token always belongs to it. -/
def statementRest (first : Bool) (depth : Nat) (before : Option Token) : List Token → Cursor
  | [] => ⟨before, []⟩
  | t :: r =>
    if !first && depth = 0 && breaksBetween before t then ⟨before, t :: r⟩
    else if t.isPunctOf openers then statementRest false (depth + 1) (some t) r
    else if t.isPunctOf closers then statementRest false (depth - 1) (some t) r
    else if t.isPunct ";" && depth = 0 then ⟨some t, r⟩
    else statementRest false depth (some t) r

/-- Passes one statement. -/
def skipStatement (c : Cursor) : Cursor := statementRest true 0 c.before c.ahead

/-- Whether a token ends the expression before it. -/
def endsExpr (t : Token) : Bool := t.isPunctOf [",", ";", ")", "]", "\x7d"]

/-- Passes the rest of an expression, up to the token that ends it. -/
def exprRest (first : Bool) (depth : Nat) (before : Option Token) : List Token → Cursor
  | [] => ⟨before, []⟩
  | t :: r =>
    if depth = 0 && ((!first && breaksBetween before t) || endsExpr t) then ⟨before, t :: r⟩
    else if t.isPunctOf openers then exprRest false (depth + 1) (some t) r
    else if t.isPunctOf closers then exprRest false (depth - 1) (some t) r
    else exprRest false depth (some t) r

/-- Passes one expression. -/
def skipExpr (c : Cursor) : Cursor := exprRest true 0 c.before c.ahead

/-- Passes the rest of a member of an object type that is no property, with its separator. -/
def memberRest (first : Bool) (depth : Nat) (before : Option Token) : List Token → Cursor
  | [] => ⟨before, []⟩
  | t :: r =>
    if depth = 0 && !first && t.newlineBefore then ⟨before, t :: r⟩
    else if t.isPunctOf ["(", "[", "\x7b", "<"] then memberRest false (depth + 1) (some t) r
    else if t.isPunctOf [")", "]", ">"] then memberRest false (depth - 1) (some t) r
    else if t.isPunct "\x7d" then
      if depth = 0 then ⟨before, t :: r⟩ else memberRest false (depth - 1) (some t) r
    else if t.isPunctOf [";", ","] && depth = 0 then ⟨some t, r⟩
    else memberRest false depth (some t) r

/-- Passes an index, call or construct signature or an accessor. -/
def skipTypeMember (c : Cursor) : Cursor := memberRest true 0 c.before c.ahead

/-- Passes the head of a class, inside `inner` groups, and its body. -/
def classRest (inner : Nat) (before : Option Token) : List Token → Parsed Cursor
  | [] => .error ((⟨before, []⟩ : Cursor).unexpected .closedBrackets)
  | t :: r =>
    if inner = 0 then
      if t.isPunct "\x7b" then closeGroups 1 (some t) r
      else if t.isPunctOf ["(", "["] then classRest 1 (some t) r
      else classRest 0 (some t) r
    else if t.isPunctOf openers then classRest (inner + 1) (some t) r
    else if t.isPunctOf closers then classRest (inner - 1) (some t) r
    else classRest inner (some t) r

/-- Passes a class. -/
def skipClass (c : Cursor) : Parsed Cursor := classRest 0 c.before c.ahead

/-- The source text from the first of some tokens to the end of the last. -/
def spell : List Token → String
  | [] => ""
  | t :: r => t.text ++ String.join (r.map fun u => u.gap ++ u.text)

/-- The tokens between two places. -/
def upTo (c later : Cursor) : List Token := c.ahead.take (c.ahead.length - later.ahead.length)

end Cursor

end AppBundler
