import AppBundler.Source.Lexeme
import AppBundler.Source.Token
/-!
# From text to tokens

The text is read as gaps and lexemes in turn. Whether a slash begins a regular expression and an angle
bracket an element is told from the token before it. A text without the marks of a closing tag has no
elements; one with them is read again without elements when the first reading fails.
-/

namespace AppBundler

/-- What stands between two tokens: the text of the gap, the body of its last documentation comment and the
characters after it. -/
structure Gap where
  text : List Char
  doc : Option (List Char)
  rest : List Char

namespace Gap

/-- The gap seen from the start of a text that was read before it. -/
def precede (text : List Char) : Except LexicalFault Gap → Except LexicalFault Gap
  | .ok g => .ok ⟨text ++ g.text, g.doc, g.rest⟩
  | .error f => .error ⟨f.problem, text ++ f.read⟩

/-- The documentation in the body of a block comment: what follows a second star, unless it is empty. -/
def docOf (body : List Char) : Option (List Char) :=
  match body with
  | '*' :: c :: r => some (c :: r)
  | _ => none

/-- Lets a comment's documentation count when no later comment has one. -/
def withDoc (doc : Option (List Char)) : Except LexicalFault Gap → Except LexicalFault Gap
  | .ok g => .ok { g with doc := g.doc.or doc }
  | .error f => .error f

mutual

/-- Reads blanks and comments. -/
def scan : List Char → Except LexicalFault Gap
  | '/' :: '/' :: r => precede ['/', '/'] (scanLine r)
  | '/' :: '*' :: r => precede ['/', '*'] (scanBlock [] r)
  | [] => .ok ⟨[], none, []⟩
  | c :: r => if isBlank c then precede [c] (scan r) else .ok ⟨[], none, c :: r⟩

/-- Goes on inside a line comment. -/
def scanLine : List Char → Except LexicalFault Gap
  | [] => .ok ⟨[], none, []⟩
  | c :: r => if c = '\n' then precede [c] (scan r) else precede [c] (scanLine r)

/-- Goes on inside a block comment, of whose body the characters read so far are given in reverse. -/
def scanBlock (body : List Char) : List Char → Except LexicalFault Gap
  | [] => .error ⟨.unterminatedComment, []⟩
  | '*' :: '/' :: r => withDoc (docOf body.reverse) (precede ['*', '/'] (scan r))
  | c :: r => precede [c] (scanBlock (c :: body) r)

end

end Gap

namespace Token

/-- The keywords after which an operand comes. -/
def operandKeywords : List String :=
  ["return", "typeof", "instanceof", "in", "of", "new", "delete", "void", "throw", "case", "do",
    "else", "yield", "await"]

/-- Whether an operand may begin after a token, so that a slash begins a regular expression there. -/
def operandMayFollow : Option Token → Bool
  | none => true
  | some t =>
    match t.kind with
    | .punct => t.text ≠ ")" && t.text ≠ "]" && t.text ≠ "\x7d"
    | .ident => operandKeywords.contains t.text
    | _ => false

end Token

namespace Lexer

/-- Reads the token that begins with the first of the characters, of which there is one at least. -/
def lexeme (jsx operand : Bool) (s : List Char) : Except LexicalFault (TokenKind × Split) :=
  match s with
  | [] => .ok (.punct, ⟨[], []⟩)
  | c :: r =>
    let tagged (kind : TokenKind) (scan : Scan) : Except LexicalFault (TokenKind × Split) :=
      (scan.precede [c]).map fun split => (kind, split)
    if c = '"' || c = '\'' then tagged .string (Lexeme.stringRest c r)
    else if c = '\x60' then tagged .template (Lexeme.templateRest jsx (2 * s.length + 2) r)
    else if c.isDigit || (c = '.' && (r.head?.any Char.isDigit)) then .ok (.number, Lexeme.number s)
    else if Lexeme.isIdentStart c then
      tagged .ident (.ok (Lexeme.takeWhile Lexeme.isIdentContinue r))
    else if c = '/' && operand then tagged .regex (Lexeme.regexRest false r)
    else if c = '<' && jsx && operand && Lexeme.elementFollows r then
      tagged .jsx (Lexeme.elementRest jsx (2 * s.length + 2) r)
    else .ok (.punct, Lexeme.punctuator s)

/-- The error of a fault in a text that begins at `p`. -/
def errorAt (p : Position) (f : LexicalFault) : SyntaxError :=
  let q := p.after f.read
  ⟨f.problem, q.line, q.column⟩

/-- Reads gaps and tokens to the end of the text, which begins at `p` after the token `last`. Each round
reads a character at least; the first argument counts rounds down. -/
def tokensFrom (jsx : Bool) : Nat → (last : Option Token) → (p : Position) → List Char →
    Except SyntaxError (List Token)
  | 0, _, p, _ => .error ⟨.tooDeep, p.line, p.column⟩
  | n + 1, last, p, s =>
    match Gap.scan s with
    | .error f => .error (errorAt p f)
    | .ok gap =>
      if gap.rest.isEmpty then .ok []
      else
        let start := p.after gap.text
        match lexeme jsx (Token.operandMayFollow last) gap.rest with
        | .error f => .error (errorAt start f)
        | .ok (kind, split) =>
          let token : Token :=
            ⟨kind, String.ofList split.text, String.ofList gap.text, start, gap.doc.map String.ofList⟩
          match tokensFrom jsx n (some token) (start.after split.text) split.rest with
          | .error e => .error e
          | .ok more => .ok (token :: more)

/-- A first line that begins with a number sign and an exclamation mark, and what follows it. -/
def interpreterLine (s : List Char) : Split :=
  match s with
  | '#' :: '!' :: _ => Lexeme.lineRest s
  | _ => ⟨[], s⟩

/-- The tokens of a text that is read with or without elements. -/
def run (jsx : Bool) (s : List Char) : Except SyntaxError (List Token) :=
  let line := interpreterLine s
  tokensFrom jsx (s.length + 1) none (Position.start.after line.text) line.rest

/-- Whether a text has a mark of a closing tag. -/
def mayHaveElements (s : List Char) : Bool := Text.hasPart ['<', '/'] s || Text.hasPart ['/', '>'] s

/-- The tokens of a text. -/
def tokens (s : List Char) : Except SyntaxError (List Token) :=
  if mayHaveElements s then
    match run true s with
    | .ok ts => .ok ts
    | .error _ => run false s
  else run false s

end Lexer

/-- The tokens of a source text. -/
def tokenize (source : String) : Except SyntaxError (List Token) := Lexer.tokens source.toList

end AppBundler
