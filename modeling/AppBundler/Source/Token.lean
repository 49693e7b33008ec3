import AppBundler.Source.Position
/-!
# Tokens

A token keeps its text as written and the text between it and the token before it, so that a run of tokens
spells the source that it covers.
-/

namespace AppBundler

/-- The classes of tokens. -/
inductive TokenKind where
  | ident
  | string
  | template
  | number
  | regex
  | jsx
  | punct
deriving DecidableEq, Inhabited

/-- A token of a source text. -/
structure Token where
  kind : TokenKind
  /-- The token as written, with the quotes of a string. -/
  text : String
  /-- The blanks and comments between the token before this one, or the start, and this token. -/
  gap : String
  /-- Where the text begins. -/
  start : Position
  /-- The body of the last documentation comment in the gap. -/
  doc : Option String
deriving DecidableEq, Inhabited

namespace Token

/-- Whether a line break separates the token from the one before it. -/
def newlineBefore (t : Token) : Bool := t.gap.toList.contains '\n'

/-- The number of bytes before the end of the token. -/
def endOffset (t : Token) : Nat := t.start.offset + t.text.utf8ByteSize

/-- Whether the token is a certain punctuator. -/
def isPunct (t : Token) (text : String) : Bool := t.kind = .punct && t.text = text

/-- Whether the token is a certain identifier or keyword. -/
def isIdent (t : Token) (name : String) : Bool := t.kind = .ident && t.text = name

/-- Whether the token is a punctuator among some. -/
def isPunctOf (t : Token) (texts : List String) : Bool := t.kind = .punct && texts.contains t.text

/-- Resolves the escapes of a string literal. A backslash before a line feed, and one at the end, stand for
nothing; before a letter without a meaning of its own a backslash is dropped. -/
def unescape : List Char → List Char
  | [] => []
  | ['\\'] => []
  | '\\' :: c :: r =>
    if c = 'n' then '\n' :: unescape r
    else if c = 't' then '\t' :: unescape r
    else if c = 'r' then '\r' :: unescape r
    else if c = '0' then Char.ofNat 0 :: unescape r
    else if c = '\n' then unescape r
    else c :: unescape r
  | c :: r => c :: unescape r

/-- The text that a string literal stands for. -/
def stringValue? (t : Token) : Option String :=
  if t.kind = .string then some (String.ofList (unescape (t.text.toList.drop 1).dropLast)) else none

end Token

end AppBundler
