import AppBundler.Source.Error
import AppBundler.Text.Blank
import AppBundler.Text.Letter
/-!
# Lexemes

Scanners read one piece of a source text from its first characters. Each one splits the characters into
those it read and the rest; when it fails, it says how much it had read.
-/

namespace AppBundler

/-- The characters that a scanner read, and those that follow. -/
structure Split where
  text : List Char
  rest : List Char
deriving DecidableEq

/-- A problem and the characters that were read before it showed. -/
structure LexicalFault where
  problem : SyntaxProblem
  read : List Char
deriving DecidableEq

/-- The outcome of a scanner. -/
abbrev Scan := Except LexicalFault Split

namespace Scan

/-- The outcome seen from the start of a text that was read before it. -/
def precede (text : List Char) : Scan → Scan
  | .ok s => .ok ⟨text ++ s.text, s.rest⟩
  | .error f => .error ⟨f.problem, text ++ f.read⟩

/-- Goes on with another scanner where the first one stopped. -/
def andThen (first : Scan) (next : List Char → Scan) : Scan :=
  match first with
  | .ok s => (next s.rest).precede s.text
  | .error f => .error f

/-- A failure before anything more was read. -/
def fail (problem : SyntaxProblem) : Scan := .error ⟨problem, []⟩

end Scan

namespace Lexeme

/-! ## Characters -/

/-- The characters that an identifier may begin with. -/
def isIdentStart (c : Char) : Bool := c = '_' || c = '$' || c = '#' || isLetter c

/-- The characters that an identifier may go on with. -/
def isIdentContinue (c : Char) : Bool := c = '_' || c = '$' || isLetterOrNumber c

/-- Takes characters as long as they satisfy a condition. -/
def takeWhile (p : Char → Bool) (s : List Char) : Split := ⟨s.takeWhile p, s.dropWhile p⟩

/-! ## Comments, strings and other flat pieces -/

/-- The rest of a line, without its line feed. -/
def lineRest (s : List Char) : Split := takeWhile (· ≠ '\n') s

/-- The rest of a block comment, with its end. -/
def commentRest : List Char → Scan
  | [] => .fail .unterminatedComment
  | '*' :: '/' :: r => .ok ⟨['*', '/'], r⟩
  | c :: r => (commentRest r).precede [c]

/-- The rest of a string literal, with its closing quote. -/
def stringRest (quote : Char) : List Char → Scan
  | [] => .fail .unterminatedString
  | ['\\'] => .error ⟨.unterminatedString, ['\\']⟩
  | '\\' :: c :: r => (stringRest quote r).precede ['\\', c]
  | c :: r =>
    if c = '\n' then .error ⟨.unterminatedString, [c]⟩
    else if c = quote then .ok ⟨[c], r⟩
    else (stringRest quote r).precede [c]

/-- The rest of a regular expression, with its flags. In a class a slash does not end it. -/
def regexRest (inClass : Bool) : List Char → Scan
  | [] => .fail .unterminatedRegex
  | ['\\'] => .error ⟨.unterminatedRegex, ['\\']⟩
  | '\\' :: c :: r => (regexRest inClass r).precede ['\\', c]
  | c :: r =>
    if c = '\n' then .error ⟨.unterminatedRegex, [c]⟩
    else if c = '[' then (regexRest true r).precede [c]
    else if c = ']' then (regexRest false r).precede [c]
    else if c = '/' && !inClass then Scan.precede [c] (.ok (takeWhile isIdentContinue r))
    else (regexRest inClass r).precede [c]

/-- The characters of a number after `last`. A sign belongs to it after the letter of an exponent. -/
def numberRest (hex : Bool) (last : Char) : List Char → Split
  | [] => ⟨[], []⟩
  | c :: r =>
    if c.isAlphanum || c = '_' || c = '.' || ((c = '+' || c = '-') && !hex && (last = 'e' || last = 'E')) then
      let s := numberRest hex c r
      ⟨c :: s.text, s.rest⟩
    else ⟨[], c :: r⟩

/-- A number, from its first digit or its point on. -/
def number : List Char → Split
  | [] => ⟨[], []⟩
  | c :: r =>
    let hex := c = '0' && (r.head? = some 'x' || r.head? = some 'X')
    let s := numberRest hex c r
    ⟨c :: s.text, s.rest⟩

/-- The punctuators of several characters, the longest first. None begins with an angle bracket, so that
nested type arguments close one at a time. -/
def punctuators : List (List Char) :=
  ["...", "===", "!==", "**=", "&&=", "||=", "??=", "=>", "==", "!=", "&&", "||", "??", "?.",
    "++", "--", "+=", "-=", "*=", "/=", "%=", "&=", "|=", "^=", "**"].map String.toList

/-- The first punctuator that the text begins with, or one character. -/
def punctuator (s : List Char) : Split :=
  match punctuators.find? fun p => p.isPrefixOf s with
  | some p => ⟨p, s.drop p.length⟩
  | none => ⟨s.take 1, s.drop 1⟩

/-! ## Templates and elements

Template literals, embedded expressions and elements contain each other. Every call reads at least one
character more than its caller, or is the only one at its place; twice the number of characters bounds their
nesting, which the first argument counts down. -/

/-- The characters after which an angle bracket may open an element inside an embedded expression. -/
def opensOperand (c : Char) : Bool :=
  ['(', ',', '=', '{', '?', ':', '&', '|', '>', '[', '!'].contains c

/-- Whether an element begins at an angle bracket that these characters follow. -/
def elementFollows : List Char → Bool
  | [] => false
  | c :: _ => c = '>' || isIdentStart c

/-- The type arguments of an element, from their angle bracket on. -/
def angles (depth : Nat) : List Char → Scan
  | [] => .fail .unterminatedTypeArguments
  | c :: r =>
    if c = '<' then (angles (depth + 1) r).precede [c]
    else if c = '>' then
      if depth ≤ 1 then .ok ⟨[c], r⟩ else (angles (depth - 1) r).precede [c]
    else (angles depth r).precede [c]

/-- The rest of an attribute in quotes, with its closing quote. -/
def attributeRest (quote : Char) : List Char → Scan
  | [] => .fail .unterminatedAttribute
  | c :: r => if c = quote then .ok ⟨[c], r⟩ else (attributeRest quote r).precede [c]

/-- The rest of a closing tag, with its angle bracket. -/
def closingRest : List Char → Scan
  | [] => .fail .unterminatedClosingTag
  | c :: r => if c = '>' then .ok ⟨[c], r⟩ else (closingRest r).precede [c]

mutual

/-- The rest of a template literal, with its closing backtick. -/
def templateRest (jsx : Bool) : Nat → List Char → Scan
  | 0, _ => .fail .unterminatedTemplate
  | _ + 1, [] => .fail .unterminatedTemplate
  | _ + 1, ['\\'] => .error ⟨.unterminatedTemplate, ['\\']⟩
  | n + 1, '\\' :: c :: r => (templateRest jsx n r).precede ['\\', c]
  | n + 1, '$' :: '{' :: r =>
    ((embeddedRest jsx n 0 '{' r).andThen (templateRest jsx n)).precede ['$', '{']
  | n + 1, c :: r => if c = '\x60' then .ok ⟨[c], r⟩ else (templateRest jsx n r).precede [c]

/-- The rest of an embedded expression, with the brace that closes it: `inner` more braces are open and
`last` is the last character that counts for what an angle bracket means. -/
def embeddedRest (jsx : Bool) : Nat → (inner : Nat) → (last : Char) → List Char → Scan
  | 0, _, _, _ => .fail .unterminatedExpression
  | _ + 1, _, _, [] => .fail .unterminatedExpression
  | n + 1, inner, last, c :: r =>
    if c = '{' then (embeddedRest jsx n (inner + 1) c r).precede [c]
    else if c = '}' then
      match inner with
      | 0 => .ok ⟨[c], r⟩
      | k + 1 => (embeddedRest jsx n k c r).precede [c]
    else if c = '"' || c = '\'' then
      ((stringRest c r).andThen (embeddedRest jsx n inner c)).precede [c]
    else if c = '\x60' then
      ((templateRest jsx n r).andThen (embeddedRest jsx n inner c)).precede [c]
    else if c = '/' && r.head? = some '/' then
      (Scan.andThen (.ok (lineRest r)) (embeddedRest jsx n inner c)).precede [c]
    else if c = '/' && r.head? = some '*' then
      (((commentRest (r.drop 1)).precede ['*']).andThen (embeddedRest jsx n inner c)).precede [c]
    else if c = '<' && jsx && opensOperand last && elementFollows r then
      ((elementRest jsx n r).andThen (embeddedRest jsx n inner '>')).precede [c]
    else (embeddedRest jsx n inner (if isBlank c then last else c) r).precede [c]

/-- The rest of an element after its first angle bracket. -/
def elementRest (jsx : Bool) : Nat → List Char → Scan
  | 0, _ => .fail .unterminatedElement
  | n + 1, s =>
    match s with
    | '>' :: r => (childrenRest jsx n r).precede ['>']
    | _ =>
      let name := takeWhile (fun c => isIdentContinue c || c = '.' || c = ':' || c = '-') s
      let typed := if name.rest.head? = some '<' then angles 0 name.rest else .ok ⟨[], name.rest⟩
      (typed.andThen (attributesRest jsx n)).precede name.text

/-- The attributes of an element and what follows them. -/
def attributesRest (jsx : Bool) : Nat → List Char → Scan
  | 0, _ => .fail .unterminatedElement
  | _ + 1, [] => .fail .unterminatedElement
  | n + 1, c :: r =>
    if isBlank c then (attributesRest jsx n r).precede [c]
    else if c = '/' && r.head? = some '>' then .ok ⟨['/', '>'], r.drop 1⟩
    else if c = '>' then (childrenRest jsx n r).precede [c]
    else if c = '{' then ((embeddedRest jsx n 0 '{' r).andThen (attributesRest jsx n)).precede [c]
    else if isIdentStart c && isIdentContinue c then
      let name := takeWhile (fun c => isIdentContinue c || c = '-' || c = ':') r
      let valued : Scan := match name.rest with
        | '=' :: q :: r =>
          if q = '"' || q = '\'' then (attributeRest q r).precede ['=', q]
          else if q = '{' then (embeddedRest jsx n 0 '{' r).precede ['=', q]
          else .error ⟨.invalidAttributeValue, ['=']⟩
        | ['='] => .error ⟨.invalidAttributeValue, ['=']⟩
        | r => .ok ⟨[], r⟩
      (valued.andThen (attributesRest jsx n)).precede (c :: name.text)
    else .fail .unexpectedInTag

/-- The children of an element and its closing tag. -/
def childrenRest (jsx : Bool) : Nat → List Char → Scan
  | 0, _ => .fail .unterminatedElement
  | _ + 1, [] => .fail .unterminatedElement
  | n + 1, c :: r =>
    if c = '{' then ((embeddedRest jsx n 0 '{' r).andThen (childrenRest jsx n)).precede [c]
    else if c = '<' then
      if r.head? = some '/' then (closingRest r).precede [c]
      else ((elementRest jsx n r).andThen (childrenRest jsx n)).precede [c]
    else (childrenRest jsx n r).precede [c]

end

end Lexeme

end AppBundler
