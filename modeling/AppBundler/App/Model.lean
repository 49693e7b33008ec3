import AppBundler.Json.Digest
import AppBundler.Text.Blank
/-!
# Apps and scripts

An app is a list of source files under an id and a slug. Each script carries a hash of its app's id, its file
name and its code. Only blanks at the ends of lines and at the end of the code do not count in it.
-/

namespace AppBundler

namespace Text

/-- The text without blanks at the ends of its lines and at its end. -/
def trimLines (s : List Char) : List Char := trimEnd (List.intercalate ['\n'] ((lines s).map trimEnd))

end Text

/-- The hash of a script's identity and code. -/
def scriptHash (appId filename code : String) : String :=
  (Json.object [
    ("appId", .string appId), ("filename", .string filename),
    ("code", .string (String.ofList (Text.trimLines code.toList)))]).digest

/-- A source file of an app. -/
structure Script where
  id : String
  filename : String
  code : String
  order : Int
  hash : String
deriving DecidableEq, Inhabited

namespace Script

/-- A script with the hash of its content. -/
def ofCode (appId id filename code : String) (order : Int) : Script :=
  ⟨id, filename, code, order, scriptHash appId filename code⟩

/-- The script with other code. -/
def withCode (appId : String) (s : Script) (code : String) : Script :=
  ofCode appId s.id s.filename code s.order

/-- The script under another file name. -/
def withFilename (appId : String) (s : Script) (filename : String) : Script :=
  ofCode appId s.id filename s.code s.order

/-- Only source files of the two kinds that hold types are bundled. -/
def isBundled (s : Script) : Bool :=
  Text.endsWith ['.', 't', 's'] s.filename.toList || Text.endsWith ['.', 't', 's', 'x'] s.filename.toList

/-- The order of the editor: by the given number, then by file name. -/
def atOrBefore (a b : Script) : Bool :=
  a.order < b.order || (a.order == b.order && decide (a.filename ≤ b.filename))

end Script

/-- An app. -/
structure App where
  id : String
  slug : String
  secretsHash : Option String
  scripts : List Script
deriving DecidableEq, Inhabited

/-- The bundled scripts in the order of the editor. -/
def App.bundled (a : App) : List Script := (a.scripts.filter Script.isBundled).mergeSort Script.atOrBefore

end AppBundler
