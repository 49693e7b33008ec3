import AppBundler.Bundle.Config
import AppBundler.Bundle.Specifier
import AppBundler.Files.Tree
import AppBundler.Remote.Fetch
import AppBundler.Schema.Extract
import AppBundler.Store.Error
import AppBundler.Text.Quoted
/-!
# Errors of builds

An error names its cause. A file of the framework that is missing never shows where it was looked for.
-/

namespace AppBundler

/-- Why the module of a specifier could not be loaded. -/
inductive LoadFault where
  | file (fault : FileFault)
  | leavesDirectory
  | unsupported
  | unreadable (error : SyntaxError)
  | timedOut (milliseconds : Nat)
  | fetch (error : FetchError)
  | specifier (fault : SpecifierFault)
  | root (error : UrlError)
  | redirectTarget (error : UrlError)
  | scriptFilename (error : UrlError)
  | frameworkPath (error : UrlError)
deriving DecidableEq

/-- The wording of a fault. -/
def LoadFault.message : LoadFault → String
  | .file .notFound => "File not found"
  | .file fault => "I/O error: " ++ fault.kind
  | .leavesDirectory => "path escapes the framework directory"
  | .unsupported => "unsupported module specifier"
  | .unreadable e => "syntax error: " ++ e.message
  | .timedOut t => "timed out after " ++ Duration.text t
  | .fetch e => e.message
  | .specifier fault => fault.message
  | .root e => "invalid root: " ++ e.message
  | .redirectTarget e => "invalid redirect target: " ++ e.message
  | .scriptFilename e => "invalid script filename: " ++ e.message
  | .frameworkPath e => "invalid framework path: " ++ e.message

/-- Why an app could not be built or published. -/
inductive BuildError where
  | load (specifier : String) (fault : LoadFault)
  | extract (error : ExtractError)
  | storage (error : StorageError)
  /-- Two scripts have one name in the bundle. -/
  | collision (first second filename : String)
  | config (fault : ConfigFault)
  /-- The modules go on without end. -/
  | endless

/-- The wording of an error. -/
def BuildError.message : BuildError → String
  | .load specifier fault => "failed to load " ++ specifier ++ ": " ++ fault.message
  | .extract e => "schema extraction failed: " ++ e.message
  | .storage e => "storage error: " ++ e.message
  | .collision first second filename =>
    "scripts " ++ Text.shown first ++ " and " ++ Text.shown second ++ " both bundle as " ++ Text.shown filename
  | .config fault => "invalid build configuration: " ++ fault.message
  | .endless => "the modules of the bundle go on without end"

/-- The wording of an extraction error and of what caused it, outermost first. -/
def ExtractError.causes : ExtractError → List String
  | .unreadable e => [ExtractError.message (.unreadable e), e.message]
  | e => [e.message]

/-- The wording of an error and of what caused it, outermost first. -/
def BuildError.causes (e : BuildError) : List String :=
  e.message :: match e with
    | .extract e => e.causes
    | .storage e => e.causes
    | _ => []

/-- The outcome of a step of a build. -/
abbrev Built := Except BuildError

end AppBundler
