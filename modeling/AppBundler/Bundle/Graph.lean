import AppBundler.Bundle.Artifact
import AppBundler.Bundle.Context
import AppBundler.Source.Imports
/-!
# The module graph

A bundle holds its roots and everything that their modules name, in turn. Loads are asked for and arrive in
some order; each specifier is asked for once. When a module arrives under another specifier than the one asked
for, a redirect is recorded, and the module itself only if nothing else claimed its specifier before.
-/

namespace AppBundler

/-! ## What a module names -/

/-- The part of a specifier before its query and its fragment. -/
def pathOf (specifier : String) : List Char := specifier.toList.takeWhile fun c => c ≠ '?' && c ≠ '#'

/-- Whether a module is source text that may name others: neither data nor a style sheet. -/
def SourceModule.isScript (m : SourceModule) : Bool :=
  let isData := m.contentType?.any fun t =>
    Text.hasPart "json".toList t.toList || Text.beginsWith "text/css".toList t.toList
  let path := pathOf m.specifier
  !isData && !(Text.endsWith ".json".toList path || Text.endsWith ".css".toList path)

/-- The URL that a specifier stands for in a module at `base`. -/
def resolveDependency (specifier : String) (base : Url) : Built Url :=
  (Specifier.resolve specifier base).mapError fun fault => .load specifier (.specifier fault)

/-- The specifiers that a module names: its imports in order, then the runtime for elements. -/
def SourceModule.namedSpecifiers (m : SourceModule) : Built (List String) :=
  if m.isScript then
    match Import.scan m.content with
    | .error e => .error (.load m.specifier (.unreadable e))
    | .ok imports =>
      .ok (imports.map (·.specifier) ++ (jsxImportSource? m.content).toList.map (· ++ "/jsx-runtime"))
  else .ok []

/-- The URLs that a module at `base` names. -/
def dependencies (m : SourceModule) (base : Url) : Built (List Url) := do
  (← m.namedSpecifiers).mapM fun specifier => resolveDependency specifier base

/-! ## Resolving -/

/-- A graph while it is resolved. -/
structure Resolution where
  /-- Specifiers that were asked for or claimed. -/
  seen : List String
  /-- URLs that were asked for and have not arrived, oldest first. -/
  pending : List Url
  /-- Records in the order in which they were made. -/
  records : List GraphModule

namespace Resolution

/-- Nothing has been asked for. -/
def start : Resolution := ⟨[], [], []⟩

/-- Asks for a URL unless its specifier was seen before. -/
def request (s : Resolution) (url : Url) : Resolution :=
  if s.seen.contains url.text then s else { s with seen := url.text :: s.seen, pending := s.pending ++ [url] }

/-- Adds a record. -/
def record (s : Resolution) (m : GraphModule) : Resolution := { s with records := s.records ++ [m] }

/-- Takes in a module at the URL `base` and asks for what it names. -/
def takeIn (s : Resolution) (m : SourceModule) (base : Url) : Built Resolution := do
  let urls ← dependencies m base
  return (urls.foldl request s).record (.module m)

/-- Takes in what arrived for a URL, which is no longer pending. -/
def arrive (s : Resolution) (requested : Url) : Loaded → Built Resolution
  | .external => .ok (s.record (.external requested.text))
  | .source m =>
    if m.specifier = requested.text then s.takeIn m requested
    else
      let s := s.record (.redirect requested.text m.specifier)
      if s.seen.contains m.specifier then .ok s
      else
        match Url.parse m.specifier with
        | .error e => .error (.load requested.text (.redirectTarget e))
        | .ok base => { s with seen := m.specifier :: s.seen }.takeIn m base

/-- Asks for the roots. -/
def ofRoots (roots : List String) : Built Resolution :=
  roots.foldlM (fun s root =>
    match Url.parse root with
    | .ok url => .ok (s.request url)
    | .error e => .error (.load root (.root e))) start

/-- Loads what is pending, in the order in which it was asked for, until nothing is. -/
def run {σ : Type} (load : Url → σ → Built Loaded × σ) : (fuel : Nat) → Resolution → σ →
    Built (List GraphModule) × σ
  | 0, _, w => (.error .endless, w)
  | fuel + 1, s, w =>
    match s.pending with
    | [] => (.ok s.records, w)
    | url :: r =>
      match load url w with
      | (.error e, w) => (.error e, w)
      | (.ok loaded, w) =>
        match { s with pending := r }.arrive url loaded with
        | .error e => (.error e, w)
        | .ok s => run load fuel s w

end Resolution

/-- The number of modules after which a graph is taken to be endless. -/
def moduleLimit : Nat := 1000000

/-- The artifact of a context. -/
def BuildContext.resolve (c : BuildContext) (around : Surroundings) (s : LoadState) :
    Built Artifact × LoadState :=
  match Resolution.ofRoots c.roots with
  | .error e => (.error e, s)
  | .ok start =>
    let (records, s) := start.run (c.load around) moduleLimit s
    (records.map (Artifact.ofModules c.roots), s)

/-- Counts of what has been done. -/
structure BuildCounts where
  builds : Nat
  reused : Nat
  modules : Nat
deriving Inhabited

/-- The counts after another build. -/
def BuildCounts.addBuild (n : BuildCounts) : Built Artifact → BuildCounts
  | .ok a => { n with builds := n.builds + 1, modules := n.modules + a.modules.length }
  | .error _ => n

/-- Builds an app. -/
def buildArtifact (config : BuildConfig) (cache : ModuleCache) (around : Surroundings)
    (request : BuildRequest) (s : LoadState) : Built Artifact × LoadState :=
  match BuildContext.ofRequest config cache request with
  | .error e => (.error e, s)
  | .ok c => c.resolve around s

end AppBundler
