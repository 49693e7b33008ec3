import AppBundler.Json.Parser
import AppBundler.Json.Printer
import AppBundler.Remote.Fetch
/-!
# Artifacts

An artifact lists the roots of a bundle and one record for each specifier in it, in the order of the
specifiers, so that a record can be found by halving.
-/

namespace AppBundler

/-- A record of a bundle. -/
inductive GraphModule where
  | module (module : SourceModule)
  /-- What was asked for under a specifier lies under another one. -/
  | redirect (specifier target : String)
  /-- The program that runs the bundle has the module. -/
  | external (specifier : String)
deriving DecidableEq

namespace GraphModule

/-- The specifier of a record. -/
def specifier : GraphModule → String
  | .module m => m.specifier
  | .redirect s _ => s
  | .external s => s

/-- The name of a kind of record. -/
def kind : GraphModule → String
  | .module _ => "module"
  | .redirect _ _ => "redirect"
  | .external _ => "external"

/-- A record as JSON. -/
def toJson (g : GraphModule) : Json :=
  match g with
  | .module m => .object [
      ("kind", .string g.kind), ("specifier", .string m.specifier), ("headers", headersJson m.headers),
      ("content", .string m.content)]
  | .redirect s target => .object [
      ("kind", .string g.kind), ("specifier", .string s), ("target", .string target)]
  | .external s => .object [("kind", .string g.kind), ("specifier", .string s)]

/-- The record of a kind with the fields that an object has, or an array in order. -/
def ofKind? (kind : String) (rest : Json) : Option GraphModule :=
  if kind = "module" then (SourceModule.ofJson? rest).map .module
  else if kind = "redirect" then
    match rest with
    | .object ms => do some (.redirect (← (← Json.only? "specifier" ms).string?) (← (← Json.only? "target" ms).string?))
    | .array [.string s, .string target] => some (.redirect s target)
    | _ => none
  else if kind = "external" then
    match rest with
    | .object ms => do some (.external (← (← Json.only? "specifier" ms).string?))
    | .array [.string s] => some (.external s)
    | _ => none
  else none

/-- The record that JSON stands for: an object, or an array that begins with the kind. -/
def ofJson? : Json → Option GraphModule
  | .object ms => do ofKind? (← (← Json.only? "kind" ms).string?) (.object ms)
  | .array (.string kind :: rest) => ofKind? kind (.array rest)
  | _ => none

end GraphModule

/-- A bundle. -/
structure Artifact where
  format : String
  /-- The framework's entry point, then the scripts. -/
  roots : List String
  modules : List GraphModule
deriving DecidableEq

namespace Artifact

/-- The format of artifacts. -/
def graphFormat : String := "applet-graph/v1"

/-- The artifact of roots and of records in any order. -/
def ofModules (roots : List String) (modules : List GraphModule) : Artifact :=
  ⟨graphFormat, roots, modules.mergeSort fun a b => decide (a.specifier ≤ b.specifier)⟩

/-! ## Finding records -/

/-- The place where a specifier stands if it stands anywhere, by halving `size` places from `base` on. -/
def probe (modules : Array GraphModule) (specifier : String) : (fuel base size : Nat) → Nat
  | 0, base, _ => base
  | fuel + 1, base, size =>
    if size ≤ 1 then base
    else
      let half := size / 2
      let beyond := match modules[base + half]? with
        | some m => decide (specifier < m.specifier)
        | none => true
      probe modules specifier fuel (if beyond then base else base + half) (size - half)

/-- The record of a specifier. -/
def module? (a : Artifact) (specifier : String) : Option GraphModule :=
  let modules := a.modules.toArray
  modules[probe modules specifier modules.size 0 modules.size]?.filter fun m => m.specifier = specifier

/-- The content of a specifier; one redirect is followed. -/
def content? (a : Artifact) (specifier : String) : Option String :=
  match a.module? specifier with
  | some (.module m) => some m.content
  | some (.redirect _ target) =>
    match a.module? target with
    | some (.module m) => some m.content
    | _ => none
  | _ => none

/-! ## Text -/

/-- An artifact as JSON. -/
def toJson (a : Artifact) : Json := .object [
  ("format", .string a.format), ("roots", .array (a.roots.map .string)),
  ("modules", .array (a.modules.map GraphModule.toJson))]

/-- The text of an artifact. -/
def text (a : Artifact) : String := a.toJson.compact

/-- The artifact of its three parts. -/
def ofParts? (format roots modules : Json) : Option Artifact := do
  some ⟨← format.string?, ← roots.strings?, ← (← modules.array?).mapM GraphModule.ofJson?⟩

/-- The artifact that JSON stands for: an object, or an array of its fields in order. -/
def ofJson? : Json → Option Artifact
  | .object ms => do
    ofParts? (← Json.only? "format" ms) (← Json.only? "roots" ms) (← Json.only? "modules" ms)
  | .array [format, roots, modules] => ofParts? format roots modules
  | _ => none

/-- The artifact of a text. -/
def ofText? (s : String) : Option Artifact :=
  match Json.parseAsWritten s.toList with
  | .ok j => ofJson? j
  | .error _ => none

end Artifact

end AppBundler
