import AppBundler.Bundle.Boot
import AppBundler.Bundle.FileName
import AppBundler.Bundle.Framework
import AppBundler.Bundle.Namespaces
import AppBundler.Bundle.Pragma
import AppBundler.Remote.Cache
/-!
# Loading modules

A build first gives every bundled script its name and URL and generates its two modules. After that any URL
can be loaded: a script is taken from the app, a file from the framework, and everything else from the network,
either directly or through the cache.
-/

namespace AppBundler

/-- What is asked of a build. -/
structure BuildRequest where
  app : App
  target : String
  version : String
  /-- The URL of the app's scripts, if it is not the usual one. -/
  baseUrl : Option String

/-- What loading a URL brings. -/
inductive Loaded where
  | source (module : SourceModule)
  /-- The program that runs the bundle has the module. -/
  | external

/-- All that loading the URLs of one build needs. -/
structure BuildContext where
  config : BuildConfig
  cache : ModuleCache
  target : String
  namespaces : Namespaces
  /-- The entry point of the framework. -/
  entry : Url
  /-- In the order of the editor, under names that differ. -/
  scripts : List BundledScript
  indexModule : String
  bootModule : String

/-- What loading changes. -/
structure LoadState where
  remote : RemoteState
  /-- The files that were asked for, in order. -/
  filesRead : List String
deriving Inhabited

/-- What builds depend on besides their settings. -/
structure Surroundings where
  readFile : String → Except FileFault String
  remote : RemoteWorld

namespace BuildContext

/-! ## Setting up -/

/-- Adds scripts to those that have their name and URL. `named` tells which file names have been given. -/
def addScripts (n : Namespaces) (named : List (String × String)) (done : List BundledScript) :
    List Script → Built (List BundledScript)
  | [] => .ok done
  | s :: r => do
    let filename := FileName.sanitize s.filename
    match named.find? fun given => given.1 = filename with
    | some (_, first) => .error (.collision first s.filename filename)
    | none =>
      let url ← n.scriptUrl filename
      addScripts n ((filename, s.filename) :: named) (done ++ [⟨url, PreparedScript.ofCode filename s.code⟩]) r

/-- The context of a build. -/
def ofRequest (config : BuildConfig) (cache : ModuleCache) (request : BuildRequest) : Built BuildContext := do
  let namespaces ← (Namespaces.ofBase request.baseUrl config.platformHost).mapError .config
  let entry ← namespaces.frameworkUrl config.frameworkEntry
  let scripts ← addScripts namespaces [] [] request.app.bundled
  let boot : BootInfo := ⟨request.app.id, request.app.slug, request.version, scripts, entry.text⟩
  return {
    config := config, cache := cache, target := request.target, namespaces := namespaces, entry := entry,
    scripts := scripts, indexModule := Boot.index (scripts.map fun s => (s.prepared.filename, s.url.text)),
    bootModule := Boot.description boot }

/-- The URLs where the bundle begins. -/
def roots (c : BuildContext) : List String := c.entry.text :: c.scripts.map fun s => s.url.text

/-- Where packages and the scripts of other apps are found. -/
def hosts (c : BuildContext) : ModuleHosts := ⟨c.config.cdnUrl, c.config.platformHost⟩

/-! ## Scripts of the app -/

/-- The script with a name, or with the name that it had before elements were allowed for. -/
def script? (c : BuildContext) (path : String) : Option BundledScript :=
  let named (name : String) := c.scripts.find? fun s => s.prepared.filename = name
  (named path).or ((Text.dropBack? ['.', 't', 's', 'x'] path.toList).bind fun stem =>
    named (String.ofList (stem ++ ['.', 't', 's'])))

/-- The type of content that every module with types is given. -/
def typescript : String × String := ("content-type", "text/typescript")

/-- A module with types under the name of one that may hold elements. -/
def elementModule (c : BuildContext) (specifier content : String) : SourceModule :=
  ⟨elementSpecifier specifier, [typescript], withPragma content c.config.jsxImportSource⟩

/-- The bundled text of a script before its pragma. -/
def scriptText (c : BuildContext) (s : BundledScript) : Except LoadFault String := do
  let code ← (c.hosts.settleSource s.prepared.code s.url).mapError .unreadable
  let front := if hasClientDirective s.prepared.code then domReference ++ "\n" else ""
  return front ++ code ++ s.prepared.footer

/-- The module of a script. -/
def loadApp (c : BuildContext) (url : Url) : Except LoadFault SourceModule :=
  match c.script? (Namespaces.pathUnder c.namespaces.appRoot url) with
  | none => .error (.file .notFound)
  | some s => (c.scriptText s).map fun code => c.elementModule s.url.text code

/-! ## Files of the framework -/

/-- The values of the placeholders in framework sources. -/
def placeholders (c : BuildContext) : PlaceholderValues := ⟨c.config.rpcHost, c.config.hmacSecret⟩

/-- The text of a file of the framework or of a generated module. -/
def frameworkText (c : BuildContext) (readFile : String → Except FileFault String) (path : String) :
    Except LoadFault String :=
  if path = Boot.indexPath then .ok c.indexModule
  else if path = Boot.descriptionPath then .ok c.bootModule
  else (Framework.readStatic readFile c.config.frameworkDir path).map (Placeholder.replace c.placeholders)

/-- The module of a file of the framework. -/
def loadFramework (c : BuildContext) (readFile : String → Except FileFault String) (url : Url) :
    Except LoadFault SourceModule :=
  let path := Namespaces.pathUnder c.namespaces.frameworkRoot url
  (c.frameworkText readFile path).map fun content => ⟨url.text, Framework.headers path, content⟩

/-! ## Modules of the network -/

/-- The outcome of a request that must be answered in time. -/
def inTime (c : BuildContext) : FetchAnswer → Except LoadFault SourceModule
  | .silent => .error (.timedOut c.config.networkTimeout)
  | .answered (.error e) => .error (.fetch e)
  | .answered (.ok m) => .ok m

/-- Headers with those of others whose names are not among them. -/
def addHeaders (headers : List (String × String)) : List (String × String) → List (String × String)
  | [] => headers
  | (name, value) :: r =>
    addHeaders (if (headerIn? headers name).isSome then headers else putSorted name value headers) r

/-- The script of another app, from the module that was served for it. -/
def platformModule (c : BuildContext) (served : SourceModule) : Except LoadFault SourceModule := do
  let url ← (Url.parse served.specifier).mapError .redirectTarget
  let code ← (c.hosts.settleSource served.content url).mapError .unreadable
  let m := c.elementModule url.text code
  return { m with headers := addHeaders m.headers served.headers }

/-- The time at which the limit for the network has gone by. -/
def deadline (c : BuildContext) (s : RemoteState) : Nat := s.now + c.config.networkTimeout

/-- The script of another app. -/
def loadPlatform (c : BuildContext) (w : RemoteWorld) (url : Url) (s : RemoteState) :
    Except LoadFault SourceModule × RemoteState :=
  match ModuleCache.ask w url.text s with
  | (.silent, after) => (c.inTime .silent, { after with now := c.deadline s })
  | (answer, after) => ((c.inTime answer).bind c.platformModule, after)

/-- A module from anywhere else, through the cache. Its age is left out: it differs from one load to the next. -/
def loadRemote (c : BuildContext) (w : RemoteWorld) (url : Url) (s : RemoteState) :
    Except LoadFault SourceModule × RemoteState :=
  let (answer, after) := c.cache.load w (some (c.deadline s)) url.text c.target s
  ((c.inTime answer).map fun m => { m with headers := m.headers.filter fun h => h.1 ≠ "age" }, after)

/-! ## Any URL -/

/-- The file that loading a URL of the framework reads, if any. -/
def fileOf? (c : BuildContext) (url : Url) : Option String :=
  let path := Namespaces.pathUnder c.namespaces.frameworkRoot url
  if path = Boot.indexPath || path = Boot.descriptionPath || Framework.leaves path then none
  else some (Framework.joinPath c.config.frameworkDir path)

/-- Loads a URL. -/
def load (c : BuildContext) (around : Surroundings) (url : Url) (s : LoadState) : Built Loaded × LoadState :=
  let finish (r : Except LoadFault SourceModule) : Built Loaded :=
    match r with
    | .ok m => .ok (.source m)
    | .error fault => .error (.load url.text fault)
  match c.namespaces.classify url with
  | none => (.error (.load url.text .unsupported), s)
  | some .external => (.ok .external, s)
  | some .app => (finish (c.loadApp url), s)
  | some .framework =>
    (finish (c.loadFramework around.readFile url), { s with filesRead := s.filesRead ++ (c.fileOf? url).toList })
  | some .platformRemote =>
    let (r, remote) := c.loadPlatform around.remote url s.remote
    (finish r, { s with remote := remote })
  | some .remote =>
    let (r, remote) := c.loadRemote around.remote url s.remote
    (finish r, { s with remote := remote })

end BuildContext

end AppBundler
