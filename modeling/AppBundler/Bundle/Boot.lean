import AppBundler.Bundle.Prepared
import AppBundler.Schema.Wire
import AppBundler.Url.Basic
/-!
# Generated modules

A bundle has two modules that are not in any file: an index of all scripts by file name, and a description of
the app with its scripts, their schemas and the entry point.
-/

namespace AppBundler

/-- A script with the URL under which it is bundled. -/
structure BundledScript where
  url : Url
  prepared : PreparedScript

/-- The app as the bundle describes it. -/
structure BootInfo where
  id : String
  slug : String
  version : String
  scripts : List BundledScript
  entrypoint : String

namespace Boot

/-- The path of the index in the framework. -/
def indexPath : String := "_generated/scripts.ts"

/-- The path of the description in the framework. -/
def descriptionPath : String := "_generated/boot.ts"

/-- The text of a quoted text. -/
def quotedText (s : String) : String := (Json.string s).compact

/-- The name of a script in the index. -/
def scriptName (n : Nat) : String := "script" ++ toString n

/-- The index of scripts by file name and specifier. -/
def index (scripts : List (String × String)) : String :=
  String.join (scripts.zipIdx.map fun (s, n) =>
    "import * as " ++ scriptName n ++ " from " ++ quotedText s.2 ++ ";\n") ++
  "\nexport default \x7b\n" ++
  String.join (scripts.zipIdx.map fun (s, n) => "  " ++ quotedText s.1 ++ ": " ++ scriptName n ++ ",\n") ++
  "\x7d;\n"

/-- A script as the description has it. -/
def scriptJson (s : BundledScript) : Json := .object [
  ("filename", .string s.prepared.filename), ("specifier", .string s.url.text),
  ("handler", s.prepared.schema.handlerJson), ("actions", s.prepared.schema.actionsJson)]

/-- The description as JSON. -/
def toJson (b : BootInfo) : Json := .object [
  ("app", .object [("id", .string b.id), ("slug", .string b.slug), ("version", .string b.version)]),
  ("scripts", .array (b.scripts.map scriptJson)), ("entrypoint", .string b.entrypoint)]

/-- The module of the description. -/
def description (b : BootInfo) : String := "export default " ++ (toJson b).pretty ++ ";\n"

end Boot

end AppBundler
