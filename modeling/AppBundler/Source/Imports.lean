import AppBundler.Source.Lexer
import AppBundler.Text.Blank
/-!
# Imports

The module specifiers that a source text names are read from its tokens, so that text in comments, strings
and templates never counts. Each one knows the bytes it covers between its quotes.
-/

namespace AppBundler

/-- How a specifier is used. -/
inductive ImportKind where
  /-- `import x from "y"`, `import "y"` -/
  | static
  /-- `import("y")` -/
  | dynamic
  /-- `export { x } from "y"`, `export * from "y"` -/
  | reExport
deriving DecidableEq

/-- A module specifier of a source text. -/
structure Import where
  specifier : String
  /-- Bytes before the first character inside the quotes. -/
  start : Nat
  /-- Bytes before the closing quote. -/
  stop : Nat
  kind : ImportKind
deriving DecidableEq

namespace Import

/-- The import of a string literal. -/
def ofToken? (t : Token) (kind : ImportKind) : Option Import :=
  t.stringValue?.map fun s => ⟨s, t.start.offset + 1, t.endOffset - 1, kind⟩

/-- The string after `from` in an import or export clause. Inside braces nothing counts but the closing
brace. -/
def clauseSource (inBraces : Bool) : List Token → Option Token
  | [] => none
  | t :: r =>
    if inBraces then clauseSource (!t.isPunct "\x7d") r
    else
      match r.head?.filter fun s => t.isIdent "from" && s.kind = .string with
      | some source => some source
      | none =>
        match t.kind with
        | .punct =>
          if t.text = "\x7b" then clauseSource true r
          else if t.text = "*" || t.text = "," then clauseSource false r
          else none
        | .ident => if t.text = "import" || t.text = "export" then none else clauseSource false r
        | _ => none

/-- The import that a token `import` begins, with the tokens after it. -/
def afterImport : List Token → Option Import
  | [] => none
  | t :: r =>
    if t.isPunct "(" then
      match r with
      | source :: close :: _ =>
        if source.kind = .string && (close.isPunct ")" || close.isPunct ",") then
          ofToken? source .dynamic
        else none
      | _ => none
    else if t.kind = .string then ofToken? t .static
    else (clauseSource false (t :: r)).bind fun source => ofToken? source .static

/-- The import that a token `export` begins, with the tokens after it. -/
def afterExport : List Token → Option Import
  | [] => none
  | t :: r =>
    if t.isPunct "*" || t.isPunct "\x7b" || t.isIdent "type" then
      (clauseSource false (t :: r)).bind fun source => ofToken? source .reExport
    else none

/-- The imports among tokens. A name after a point is a member and begins nothing. -/
def ofTokens (afterPoint : Bool) : List Token → List Import
  | [] => []
  | t :: r =>
    let here :=
      if afterPoint then none
      else if t.isIdent "import" then afterImport r
      else if t.isIdent "export" then afterExport r
      else none
    here.toList ++ ofTokens (t.isPunct "." || t.isPunct "?.") r

/-- The imports of a source text, in their order. -/
def scan (source : String) : Except SyntaxError (List Import) := (tokenize source).map (ofTokens false)

/-- Splits a text after a number of bytes. -/
def splitBytes : Nat → List Char → List Char × List Char
  | _, [] => ([], [])
  | n, c :: r =>
    if n = 0 then ([], c :: r)
    else
      let (a, b) := splitBytes (n - c.utf8Size) r
      (c :: a, b)

/-- Puts new specifiers into a text whose first `done` bytes have been passed. An import that begins
before that place is left alone, and so is one for which `new` has nothing. -/
def replaceFrom (new : Import → Option String) : (done : Nat) → List Char → List Import → List Char
  | _, s, [] => s
  | done, s, i :: r =>
    if i.start < done then replaceFrom new done s r
    else
      match new i with
      | none => replaceFrom new done s r
      | some specifier =>
        let (before, after) := splitBytes (i.start - done) s
        let (_, after) := splitBytes (i.stop - i.start) after
        before ++ specifier.toList ++ replaceFrom new i.stop after r

/-- The text with new specifiers in place of the old ones, quotes and all else untouched. -/
def replace (source : String) (imports : List Import) (new : Import → Option String) : String :=
  String.ofList (replaceFrom new 0 source.toList imports)

/-- The imports for which a replacement asks, in order: those that do not begin inside one replaced
before. -/
def asked (new : Import → Option String) : (done : Nat) → List Import → List Import
  | _, [] => []
  | done, i :: r =>
    if i.start < done then asked new done r
    else
      match new i with
      | none => i :: asked new done r
      | some _ => i :: asked new i.stop r

end Import

end AppBundler
