import AppBundler.Text.Parts
/-!
# Names of bundled files

A script is bundled under a name that may stand in a URL as it is: ASCII letters, digits, points, underscores,
hyphens and slashes, without empty segments and without segments that step through directories.
-/

namespace AppBundler

namespace FileName

/-- The characters that are kept. -/
def isKept (c : Char) : Bool := c.isAlphanum || c = '.' || c = '_' || c = '-' || c = '/'

/-- The segments that are kept. -/
def isNamed (segment : List Char) : Bool := segment ≠ [] && segment ≠ ['.'] && segment ≠ ['.', '.']

/-- The name under which a file is bundled. -/
def sanitized (filename : List Char) : List Char :=
  List.intercalate ['/'] ((Text.splitAtChar '/' (filename.filter isKept)).filter isNamed)

/-- The name under which a file is bundled. -/
def sanitize (filename : String) : String := String.ofList (sanitized filename.toList)

end FileName

end AppBundler
