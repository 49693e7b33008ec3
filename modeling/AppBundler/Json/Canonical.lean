import AppBundler.Json.Printer
/-!
# Canonical JSON

The canonical text of a value is its compact text after the members of every object have been put in the
order of their keys, compared by UTF-16 code units.
-/

namespace AppBundler

namespace Text

/-- The UTF-16 code units of a text. -/
def units16 (s : List Char) : List Nat :=
  s.flatMap fun c =>
    let n := c.toNat
    if n < 0x10000 then [n] else [0xD800 + (n - 0x10000) / 0x400, 0xDC00 + (n - 0x10000) % 0x400]

/-- Whether a sequence stands at or before another one, a shorter one before its continuations. -/
def atOrBefore : List Nat → List Nat → Bool
  | [], _ => true
  | _ :: _, [] => false
  | a :: r, b :: s => a < b || (a == b && atOrBefore r s)

end Text

namespace Json

/-- Whether a key stands at or before another one in the canonical order. -/
def keyAtOrBefore (a b : String) : Bool :=
  Text.atOrBefore (Text.units16 a.toList) (Text.units16 b.toList)

/-- Members in the canonical order of their keys. -/
def sortMembers (ms : List (String × Json)) : List (String × Json) :=
  ms.mergeSort fun a b => keyAtOrBefore a.1 b.1

mutual

/-- The value with the members of every object in canonical order. -/
def canonical : Json → Json
  | .array xs => .array (canonicalElements xs)
  | .object ms => .object (sortMembers (canonicalMembers ms))
  | .null => .null
  | .bool b => .bool b
  | .int n => .int n
  | .double x => .double x
  | .string s => .string s

/-- Each element in its canonical form. -/
def canonicalElements : List Json → List Json
  | [] => []
  | x :: r => canonical x :: canonicalElements r

/-- Each member with its value in canonical form. -/
def canonicalMembers : List (String × Json) → List (String × Json)
  | [] => []
  | (k, v) :: r => (k, canonical v) :: canonicalMembers r

end

/-- The canonical text of a value. -/
def canonicalText (j : Json) : String := j.canonical.compact

end Json

end AppBundler
