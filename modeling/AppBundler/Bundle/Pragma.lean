import AppBundler.Source.Lexer
import AppBundler.Text.Blank
/-!
# Directives and pragmas

A script whose first token is the string `use client` runs in a browser. A pragma says where the runtime for
elements comes from; a module without one is given the usual pragma, and every module with types is bundled
under the name of one that may hold elements.
-/

namespace AppBundler

/-- The directive of a script for browsers. -/
def clientDirective : String := "use client"

/-- The line that gives a script the types of the browser. -/
def domReference : String := "/// <reference lib=\"dom\" />"

/-- Whether a source text begins with the directive for browsers. -/
def hasClientDirective (source : String) : Bool :=
  match tokenize source with
  | .ok (t :: _) => t.stringValue? = some clientDirective
  | _ => false

namespace Pragma

/-- How a pragma begins. -/
def keyword : List Char := "@jsxImportSource".toList

/-- Drops the ends of comments at the end. -/
def trimCommentEnds : List Char → List Char
  | '/' :: '*' :: r => trimCommentEnds r
  | s => s

/-- What a pragma at the front of a text names: the first word after blanks. -/
def here? (s : List Char) : Option (List Char) :=
  (Text.dropFront? keyword s).bind fun r =>
    let word := (r.dropWhile isBlank).takeWhile fun c => !isBlank c
    if r.head?.any isBlank && !word.isEmpty then some (trimCommentEnds word.reverse).reverse else none

/-- What the first pragma of a text names. -/
def find? : List Char → Option (List Char)
  | [] => none
  | c :: r => (here? (c :: r)).or (find? r)

end Pragma

/-- Where a module says that the runtime for elements comes from. -/
def jsxImportSource? (source : String) : Option String := (Pragma.find? source.toList).map String.ofList

/-- The specifier under which a module with types is bundled. -/
def elementSpecifier (specifier : String) : String :=
  match Text.dropBack? ['.', 't', 's'] specifier.toList with
  | some stem => String.ofList (stem ++ ['.', 't', 's', 'x'])
  | none => specifier

/-- The content with a pragma: its own or else the usual one. -/
def withPragma (content source : String) : String :=
  match jsxImportSource? content with
  | some _ => content
  | none => "/** @jsxImportSource " ++ source ++ " */\n" ++ content

end AppBundler
