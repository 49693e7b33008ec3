import AppBundler.Bundle.Error
import AppBundler.Bundle.Placeholder
/-!
# Files of the framework

The files of the framework lie below one directory. A path from a URL is followed only when it cannot leave
that directory; the placeholders in what is read are then replaced.
-/

namespace AppBundler

namespace Framework

/-- What follows the last point of a path; the whole path when it has none. -/
def extension (path : List Char) : List Char := (path.reverse.takeWhile (· ≠ '.')).reverse

/-- The type of the content of a file. -/
def contentType (path : String) : String :=
  let e := String.ofList (extension path.toList)
  if e = "ts" || e = "mts" then "text/typescript"
  else if e = "tsx" then "text/tsx"
  else if e = "jsx" then "text/jsx"
  else if e = "json" then "application/json"
  else if e = "css" then "text/css"
  else "application/javascript"

/-- The headers of a file. -/
def headers (path : String) : List (String × String) := [("content-type", contentType path)]

/-- Whether a path may leave the directory that it is followed in. -/
def leaves (path : String) : Bool :=
  path.isEmpty || Text.beginsWith ['/'] path.toList ||
    (Text.splitAtChar '/' path.toList).contains ['.', '.']

/-- A path in a directory. -/
def joinPath (directory path : String) : String :=
  if directory.isEmpty || Text.endsWith ['/'] directory.toList then directory ++ path
  else directory ++ "/" ++ path

/-- The text of a file of the framework. -/
def readStatic (readFile : String → Except FileFault String) (directory path : String) :
    Except LoadFault String :=
  if leaves path then .error .leavesDirectory else (readFile (joinPath directory path)).mapError .file

end Framework

end AppBundler
