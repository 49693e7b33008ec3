import AppBundler.Json.Value
import AppBundler.Number.Reading
import AppBundler.Text.Blank
/-!
# Literals

The values that number and template tokens stand for.
-/

namespace AppBundler

namespace Literal

/-- The radix that the first two characters of a number name. -/
def radix? : List Char → Option Nat
  | '0' :: c :: _ =>
    if c = 'x' || c = 'X' then some 16
    else if c = 'b' || c = 'B' then some 2
    else if c = 'o' || c = 'O' then some 8
    else none
  | _ => none

/-- The value of a number token, with a minus sign before it or not: an integer of 64 bits if its digits are
one, else a double, else the text of the token. -/
def number (text : String) (negative : Bool) : Json :=
  let digits := text.toList.filter (· ≠ '_')
  let int? := match radix? digits with
    | some radix => Number.int64? radix (digits.drop 2)
    | none => Number.int64? 10 digits
  match int? with
  | some n => .int (if negative then -n else n)
  | none =>
    match Number.decimal? negative digits with
    | some (some x) => .double x
    | _ => .string text

/-- The text of a template literal without embedded expressions, as written. -/
def template? (text : String) : Option String :=
  let inner := (text.toList.drop 1).dropLast
  if Text.hasPart ['$', '{'] inner then none else some (String.ofList inner)

end Literal

end AppBundler
