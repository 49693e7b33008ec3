import AppBundler.App.Model
import AppBundler.Json.Shaped
/-!
# Descriptions of apps

An app is described by a JSON text with its id, its slug, the hash of its secrets if it has any, and its
scripts.
-/

namespace AppBundler

open Json (Shape)

/-- The shape of a script's description. -/
def Script.shape : Shape := .record "Script" [
  ("id", false, .text), ("filename", false, .text), ("code", false, .text), ("order", false, .int32),
  ("hash", false, .text)]

/-- The shape of an app's description. -/
def App.shape : Shape := .record "App" [
  ("id", false, .text), ("slug", false, .text), ("secretsHash", true, .optionalText),
  ("scripts", false, .list Script.shape)]

/-- The script of a description that has the shape. -/
def Script.ofJson? (j : Json) : Option Script := do
  some {
    id := ← (← j.member? "id").string?, filename := ← (← j.member? "filename").string?
    code := ← (← j.member? "code").string?, order := ← (← j.member? "order").int?
    hash := ← (← j.member? "hash").string? }

/-- The app of a description that has the shape. -/
def App.ofJson? (j : Json) : Option App := do
  some {
    id := ← (← j.member? "id").string?, slug := ← (← j.member? "slug").string?
    secretsHash := (j.member? "secretsHash").bind Json.string?
    scripts := ← (← (← j.member? "scripts").array?).mapM Script.ofJson? }

/-- The app of a text, or what is wrong with the text. -/
def App.ofText (s : String) : Except String App :=
  match App.shape.parse s.toList with
  | .error f => .error (f.message s)
  | .ok j => (App.ofJson? j).elim (.error "no app") .ok

end AppBundler
