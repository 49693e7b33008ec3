import AppBundler.App.Model
/-!
# Versions of apps

A version is named by the first digits of the app's hash. The hash does not depend on the order in which the
scripts are listed.
-/

namespace AppBundler

/-- The release of a framework that does not count in an app's hash. -/
def unversionedFramework : String := "0.0.0"

/-- The number of digits of a version. -/
def versionLength : Nat := 7

namespace App

/-- The order in which scripts are hashed: by file name, then by hash. -/
def hashedAtOrBefore (a b : String × String) : Bool :=
  decide (a.1 < b.1) || (a.1 == b.1 && decide (a.2 ≤ b.2))

/-- The file names and hashes of all scripts, bundled or not, in order. -/
def hashedScripts (a : App) : List (String × String) :=
  (a.scripts.map fun s => (s.filename, s.hash)).mergeSort hashedAtOrBefore

/-- The text in which the scripts enter the hash. -/
def scriptsText (a : App) : String :=
  (Json.array (a.hashedScripts.map fun (filename, hash) =>
    .object [("filename", .string filename), ("hash", .string hash)])).compact

/-- What is hashed of an app. -/
def hashed (a : App) (frameworkVersion : String) : Json :=
  .object (
    [("id", .string a.id), ("slug", .string a.slug), ("scriptsJson", .string a.scriptsText)] ++
    (if frameworkVersion = unversionedFramework then []
      else [("frameworkVersion", .string frameworkVersion)]) ++
    a.secretsHash.toList.map fun hash => ("secretsHash", .string hash))

/-- The hash of an app under a release of the framework. -/
def hash (a : App) (frameworkVersion : String) : String := (a.hashed frameworkVersion).digest

end App

/-- The version that a hash names. -/
def versionOfHash (hash : String) : String := String.ofList (hash.toList.take versionLength)

/-- Where a version of an app is served. -/
def deploymentUrl (scheme slug version : String) : String := scheme ++ "://" ++ slug ++ "/v" ++ version ++ "/"

end AppBundler
