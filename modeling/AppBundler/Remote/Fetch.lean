import AppBundler.Text.Duration
import AppBundler.Text.Parts
import AppBundler.Schema.Node
/-!
# Fetching remote modules

A fetcher is asked for a URL and brings a module, fails, or never answers. The module says under which URL it
was found in the end.
-/

namespace AppBundler

/-- Source text under the specifier where it was found in the end. -/
structure SourceModule where
  specifier : String
  /-- In the order of their names, which are in lower case. -/
  headers : List (String × String)
  content : String
deriving DecidableEq

/-- The value of a header. -/
def headerIn? (headers : List (String × String)) (name : String) : Option String :=
  (headers.find? fun h => h.1 = name).map (·.2)

/-- Headers as JSON. -/
def headersJson (headers : List (String × String)) : Json :=
  .object (headers.map fun (name, value) => (name, .string value))

/-- The headers that JSON stands for: an object of texts. -/
def headersOfJson? : Json → Option (List (String × String))
  | .object ms => ms.foldlM (fun headers (name, value) => value.string?.map fun v => putSorted name v headers) []
  | _ => none

namespace SourceModule

/-- The type of the content. -/
def contentType? (m : SourceModule) : Option String := headerIn? m.headers "content-type"

/-- A module as JSON. -/
def toJson (m : SourceModule) : Json := .object [
  ("specifier", .string m.specifier), ("headers", headersJson m.headers), ("content", .string m.content)]

/-- The module that JSON stands for: an object, or an array of its fields in order. -/
def ofJson? : Json → Option SourceModule
  | .object ms => do
    let specifier ← (← Json.only? "specifier" ms).string?
    let headers ← headersOfJson? (← Json.only? "headers" ms)
    let content ← (← Json.only? "content" ms).string?
    some ⟨specifier, headers, content⟩
  | .array [.string specifier, headers, .string content] =>
    (headersOfJson? headers).map fun headers => ⟨specifier, headers, content⟩
  | _ => none

end SourceModule

/-- Why a module could not be fetched. -/
inductive FetchError where
  | transport (specifier reason : String)
  | status (specifier : String) (code : Nat)
  | timedOut (specifier : String) (milliseconds : Nat)
  | unsupported (specifier : String)
deriving DecidableEq

/-- The wording of an error. -/
def FetchError.message : FetchError → String
  | .transport s reason => "failed to fetch " ++ s ++ ": " ++ reason
  | .status s code => "failed to fetch " ++ s ++ ": HTTP " ++ toString code
  | .timedOut s t => "fetching " ++ s ++ " timed out after " ++ Duration.text t
  | .unsupported s => "unsupported module specifier: " ++ s

/-- The answer to a request for a URL. -/
inductive FetchAnswer where
  | answered (outcome : Except FetchError SourceModule)
  | silent

/-- What answers requests. -/
abbrev Fetcher := String → FetchAnswer

/-- Whether a specifier can be asked for over the network. -/
def isFetchable (specifier : String) : Bool :=
  Text.beginsWith "https://".toList specifier.toList || Text.beginsWith "http://".toList specifier.toList

/-- Answers for a machine without a network: no request gets through. -/
def Fetcher.offline : Fetcher := fun specifier => .answered (.error (
  if isFetchable specifier then .transport specifier ("error sending request for url (" ++ specifier ++ ")")
  else .unsupported specifier))

end AppBundler
