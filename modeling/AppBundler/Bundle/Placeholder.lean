import AppBundler.Json.Printer
import AppBundler.Text.Letter
import AppBundler.Text.Parts
/-!
# Placeholders for settings

Two members of the process environment stand in framework sources for settings of the build. Where the setting
is known they are replaced by its value as a quoted text; everything else is left as it is.
-/

namespace AppBundler

/-- The settings that framework sources may ask for. -/
structure PlaceholderValues where
  rpcHost : Option String
  hmacSecret : Option String

namespace Placeholder

/-- The names of the settings with their values. -/
def named (v : PlaceholderValues) : List (List Char × Option String) :=
  [("process.env.APPLET_RPC_HOST".toList, v.rpcHost), ("process.env.APPLET_HMAC_SECRET".toList, v.hmacSecret)]

/-- Whether a name may end in front of a text. -/
def endsName (s : List Char) : Bool := !s.head?.any isWordChar

/-- The text that a placeholder at the front stands for, and its length. -/
def here? (v : PlaceholderValues) (s : List Char) : Option (List Char × Nat) :=
  (named v).findSome? fun (name, value) =>
    match Text.dropFront? name s with
    | some rest => if endsName rest then value.map fun t => (Json.quoted t, name.length) else none
    | none => none

/-- Replaces the placeholders of a text whose first `skip` characters have been replaced. -/
def replaceFrom (v : PlaceholderValues) : (skip : Nat) → List Char → List Char
  | _, [] => []
  | n + 1, _ :: r => replaceFrom v n r
  | 0, c :: r =>
    match here? v (c :: r) with
    | some (text, length) => text ++ replaceFrom v (length - 1) r
    | none => c :: replaceFrom v 0 r

/-- Replaces the placeholders of a text. -/
def replace (v : PlaceholderValues) (content : String) : String :=
  String.ofList (replaceFrom v 0 content.toList)

end Placeholder

end AppBundler
