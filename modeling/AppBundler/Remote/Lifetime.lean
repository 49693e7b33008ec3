import AppBundler.Number.Reading
import AppBundler.Remote.Fetch
import AppBundler.Text.Blank
/-!
# Lifetimes of cached modules

How long a module may stay in the cache follows from the longest age that its server allows and the age that
it already has, both in seconds of 64 bits. Without both it is one week, and it is never more than one year.
-/

namespace AppBundler

namespace Lifetime

/-- One week. -/
def usual : Int := 604800

/-- One year. -/
def longest : Int := 31536000

/-- A number brought into the range of 64 bits. -/
def saturate (n : Int) : Int := max (-Int.pow 2 63) (min n (Int.pow 2 63 - 1))

/-- Drops the double quotes at both ends. -/
def unquoted (s : List Char) : List Char :=
  ((s.dropWhile (· = '"')).reverse.dropWhile (· = '"')).reverse

/-- The name of the directive that gives the longest age. -/
def maxAgeName : List Char := ['m', 'a', 'x', '-', 'a', 'g', 'e']

/-- The longest age that a directive gives. -/
def maxAgeOf? (directive : List Char) : Option Int :=
  match Text.splitOnce? '=' directive with
  | some (name, value) =>
    if (Text.trim name).map Char.toLower = maxAgeName then Number.int64? 10 (unquoted (Text.trim value))
    else none
  | none => none

/-- The longest age that the first directive with one gives. -/
def maxAge? (cacheControl : String) : Option Int :=
  (Text.splitAtChar ',' cacheControl.toList).findSome? maxAgeOf?

/-- The age that a header gives. -/
def age? (headers : List (String × String)) : Option Int :=
  (headerIn? headers "age").bind fun a => Number.int64? 10 (Text.trim a.toList)

/-- The seconds for which a module with these headers may stay in the cache. -/
def ofHeaders (headers : List (String × String)) : Int :=
  match (headerIn? headers "cache-control").bind maxAge?, age? headers with
  | some allowed, some age => min (saturate (allowed - age)) longest
  | _, _ => usual

end Lifetime

end AppBundler
