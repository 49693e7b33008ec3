import AppBundler.Json.Parser
import AppBundler.Text.Blank
/-!
# Documentation of an input

A documentation comment describes an input in plain lines and in lines that begin with a tag: `@name`,
`@default` and `@description`. Lines with other tags count for nothing.
-/

namespace AppBundler

/-- What a documentation comment says. -/
structure Doc where
  description : Option String
  name : Option String
  default : Option Json

namespace Doc

/-- The documentation that says nothing. -/
def none : Doc := ⟨.none, .none, .none⟩

/-- A line without the blanks and stars in front of its text. -/
def cleanLine (line : List Char) : List Char := Text.trim ((Text.trim line).dropWhile (· = '*'))

/-- The text after a tag, when the line begins with it. -/
def afterTag? (tag : String) (line : List Char) : Option (List Char) :=
  match Text.dropFront? tag.toList line with
  | .none => .none
  | some [] => some []
  | some (c :: r) => if isBlank c then some (Text.trim (c :: r)) else .none

/-- The value of a default: JSON, or else the text itself. -/
def defaultOf (text : List Char) : Json :=
  match Json.parseChars text with
  | .ok v => v
  | .error _ => .string (String.ofList text)

/-- What is known after some lines: the tags, and the lines of the description in reverse. -/
structure Lines where
  text : List String
  name : Option String
  default : Option Json

/-- Takes one more line. -/
def addLine (known : Lines) (line : List Char) : Lines :=
  match afterTag? "@name" line with
  | some rest => { known with name := if rest.isEmpty then .none else some (String.ofList rest) }
  | .none =>
    match afterTag? "@default" line with
    | some rest => { known with default := some (defaultOf rest) }
    | .none =>
      match afterTag? "@description" line with
      | some rest => { known with text := String.ofList rest :: known.text }
      | .none =>
        if line.isEmpty || line.head? = some '@' then known
        else { known with text := String.ofList line :: known.text }

/-- What the body of a documentation comment says. -/
def parse (body : String) : Doc :=
  let known := ((Text.lines body.toList).map cleanLine).foldl addLine ⟨[], .none, .none⟩
  let description := if known.text.isEmpty then .none else some (" ".intercalate known.text.reverse)
  ⟨description, known.name, known.default⟩

end Doc

end AppBundler
