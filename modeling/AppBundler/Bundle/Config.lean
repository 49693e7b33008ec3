import AppBundler.App.Version
import AppBundler.Json.Printer
import AppBundler.Number.Reading
import AppBundler.Text.Duration
import AppBundler.Text.Parts
/-!
# Settings of a build

Settings come from defaults that the environment may override. A variable that is set to nothing counts as
not set. The signing secret is never part of the written settings.
-/

namespace AppBundler

/-- The settings that all builds share. -/
structure BuildConfig where
  /-- Where the files of the framework lie. -/
  frameworkDir : String
  /-- The framework's entry point in its directory. -/
  frameworkEntry : String
  frameworkVersion : String
  /-- The host that serves the scripts of other apps. -/
  platformHost : String
  /-- What is put in front of the names of packages. -/
  cdnUrl : String
  /-- Where the runtime for elements comes from when a module does not say. -/
  jsxImportSource : String
  rpcHost : Option String
  hmacSecret : Option String
  /-- How many modules may be loaded at a time. -/
  maxConcurrentLoads : Nat
  /-- How many milliseconds a call over the network may take. -/
  networkTimeout : Nat
deriving DecidableEq

/-- What is wrong with settings. -/
inductive ConfigFault where
  | notANumber (name value : String)
  | noLoads
  | openCdnUrl (url : String)
  | baseUrl (url reason : String)
deriving DecidableEq

/-- The wording of a fault. -/
def ConfigFault.message : ConfigFault → String
  | .notANumber name value => name ++ " is not a valid number: " ++ value
  | .noLoads => "max_concurrent_loads must be at least 1"
  | .openCdnUrl url => "CDN URL must end with '/': " ++ url
  | .baseUrl url reason => "invalid base URL " ++ url ++ ": " ++ reason

namespace BuildConfig

/-- The settings of an empty environment. -/
def default : BuildConfig where
  frameworkDir := "framework"
  frameworkEntry := "main.tsx"
  frameworkVersion := unversionedFramework
  platformHost := "applet.run"
  cdnUrl := "https://esm.sh/"
  jsxImportSource := "https://esm.sh/react@18.3.1"
  rpcHost := none
  hmacSecret := none
  maxConcurrentLoads := 8
  networkTimeout := Duration.seconds 30

instance : Inhabited BuildConfig := ⟨default⟩

/-- Whether the settings can be used. -/
def validate (c : BuildConfig) : Except ConfigFault Unit :=
  if c.maxConcurrentLoads = 0 then .error .noLoads
  else if Text.endsWith ['/'] c.cdnUrl.toList then .ok ()
  else .error (.openCdnUrl c.cdnUrl)

/-- A number from the environment, if it is set. -/
def number? (setting? : String → Option String) (name : String) : Except ConfigFault (Option Nat) :=
  match setting? name with
  | none => .ok none
  | some value =>
    match Number.nat64? value.toList with
    | some n => .ok (some n)
    | none => .error (.notANumber name value)

/-- The variables that settings come from. -/
def variableNames : List String := [
  "APPLET_BUILD_CONCURRENCY", "APPLET_NETWORK_TIMEOUT_SECS", "APPLET_FRAMEWORK_DIR", "APPLET_FRAMEWORK_ENTRY",
  "APPLET_FRAMEWORK_VERSION", "APPLET_PLATFORM_HOST", "APPLET_CDN_URL", "APPLET_JSX_IMPORT_SOURCE",
  "APPLET_RPC_HOST", "APPLET_HMAC_SECRET"]

/-- The settings of an environment. -/
def ofEnvironment (environment : String → Option String) : Except ConfigFault BuildConfig := do
  let setting? (name : String) := (environment name).filter fun value => !value.isEmpty
  let loads ← number? setting? "APPLET_BUILD_CONCURRENCY"
  let timeout ← number? setting? "APPLET_NETWORK_TIMEOUT_SECS"
  let config : BuildConfig := {
    frameworkDir := (setting? "APPLET_FRAMEWORK_DIR").getD default.frameworkDir
    frameworkEntry := (setting? "APPLET_FRAMEWORK_ENTRY").getD default.frameworkEntry
    frameworkVersion := (setting? "APPLET_FRAMEWORK_VERSION").getD default.frameworkVersion
    platformHost := (setting? "APPLET_PLATFORM_HOST").getD default.platformHost
    cdnUrl := (setting? "APPLET_CDN_URL").getD default.cdnUrl
    jsxImportSource := (setting? "APPLET_JSX_IMPORT_SOURCE").getD default.jsxImportSource
    rpcHost := setting? "APPLET_RPC_HOST"
    hmacSecret := setting? "APPLET_HMAC_SECRET"
    maxConcurrentLoads := loads.getD default.maxConcurrentLoads
    networkTimeout := (timeout.map Duration.seconds).getD default.networkTimeout }
  config.validate
  return config

/-- The settings as they are written. -/
def toJson (c : BuildConfig) : Json := .object [
  ("framework_dir", .string c.frameworkDir), ("framework_entry", .string c.frameworkEntry),
  ("framework_version", .string c.frameworkVersion), ("platform_host", .string c.platformHost),
  ("cdn_url", .string c.cdnUrl), ("jsx_import_source", .string c.jsxImportSource),
  ("rpc_host", Json.ofOption c.rpcHost), ("max_concurrent_loads", .int c.maxConcurrentLoads),
  ("network_timeout", .object [
    ("secs", .int (c.networkTimeout / 1000 : Nat)),
    ("nanos", .int (c.networkTimeout % 1000 * 1000000 : Nat))])]

end BuildConfig

end AppBundler
