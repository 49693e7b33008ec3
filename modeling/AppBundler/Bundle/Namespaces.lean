import AppBundler.Bundle.Error
/-!
# Name spaces of a build

Where a module comes from is told by its URL alone. The classes are tried in a fixed order, so that a script of
the app is one even when it lies on the platform's host.
-/

namespace AppBundler

/-- Where modules come from. -/
inductive SpecifierClass where
  /-- From the program that runs the bundle. -/
  | external
  /-- From the app's own scripts. -/
  | app
  /-- From the framework's files and the two generated modules. -/
  | framework
  /-- From the scripts of another app. -/
  | platformRemote
  /-- From anywhere else on the network. -/
  | remote
deriving DecidableEq

/-- The roots of a build. -/
structure Namespaces where
  appRoot : Url
  frameworkRoot : Url
  platformHost : String

/-- The URL of a local directory of one name. -/
def localDirectory (name : String) : Url := ⟨"file", some ⟨"", "", none⟩, "/" ++ name ++ "/", none, none⟩

namespace Namespaces

/-- The usual URL of the app's scripts. -/
def defaultBase : String := "file:///src/"

/-- The root of the framework. -/
def frameworkDirectory : Url := localDirectory "framework"

/-- A URL with a slash at its end. -/
def closedWithSlash (url : String) : String := if Text.endsWith ['/'] url.toList then url else url ++ "/"

/-- The name spaces of a build whose scripts lie at a URL. -/
def ofBase (baseUrl : Option String) (platformHost : String) : Except ConfigFault Namespaces :=
  let base := closedWithSlash (baseUrl.getD defaultBase)
  match Url.parse base with
  | .ok appRoot => .ok ⟨appRoot, frameworkDirectory, platformHost⟩
  | .error e => .error (.baseUrl base e.message)

/-- Whether the text of a URL begins with the text of another one. -/
def liesUnder (root url : Url) : Bool := Text.beginsWith root.text.toList url.text.toList

/-- The test for each class, in the order in which they are made. -/
def tests (n : Namespaces) (url : Url) : List (SpecifierClass × Bool) := [
  (.external, ["node", "jsr", "data"].contains url.scheme),
  (.app, liesUnder n.appRoot url),
  (.framework, liesUnder n.frameworkRoot url),
  (.platformRemote, url.scheme = "https" && url.host? = some n.platformHost),
  (.remote, url.scheme = "http" || url.scheme = "https")]

/-- The class of a URL, if it has one. -/
def classify (n : Namespaces) (url : Url) : Option SpecifierClass := ((n.tests url).find? (·.2)).map (·.1)

/-- The URL of a script. -/
def scriptUrl (n : Namespaces) (filename : String) : Built Url :=
  (n.appRoot.join filename).mapError fun e => .load filename (.scriptFilename e)

/-- The URL of a file of the framework. -/
def frameworkUrl (n : Namespaces) (path : String) : Built Url :=
  (n.frameworkRoot.join path).mapError fun e => .load path (.frameworkPath e)

/-- What follows a root in the text of a URL. -/
def pathUnder (root url : Url) : String :=
  String.ofList ((Text.dropFront? root.text.toList url.text.toList).getD [])

end Namespaces

end AppBundler
