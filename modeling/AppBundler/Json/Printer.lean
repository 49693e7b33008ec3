import AppBundler.Json.Value
import AppBundler.Number.Shortest
/-!
# Writing JSON

The compact form has no blanks; the indented form puts each element on a line of its own, two blanks
deeper than its container. Both write the members of an object in their order.
-/

namespace AppBundler

namespace Json

/-- The hexadecimal digit of a number below sixteen. -/
def hexDigit (n : Nat) : Char := Nat.digitChar n

/-- How a character stands inside a quoted text: the quote, the backslash and the controls below the blank
are escaped, everything else stands for itself. -/
def escapeChar (c : Char) : List Char :=
  if c = '"' then ['\\', '"']
  else if c = '\\' then ['\\', '\\']
  else if c = '\x08' then ['\\', 'b']
  else if c = '\x0c' then ['\\', 'f']
  else if c = '\n' then ['\\', 'n']
  else if c = '\r' then ['\\', 'r']
  else if c = '\t' then ['\\', 't']
  else if c.toNat < 0x20 then ['\\', 'u', '0', '0', hexDigit (c.toNat / 16), hexDigit (c.toNat % 16)]
  else [c]

/-- A text in quotes. -/
def quoted (s : String) : List Char := '"' :: (s.toList.flatMap escapeChar ++ ['"'])

/-- The text of an integer. -/
def intChars (n : Int) : List Char :=
  match n with
  | .ofNat m => Nat.toDigits 10 m
  | .negSucc m => '-' :: Nat.toDigits 10 (m + 1)

mutual

/-- The compact text of a value. -/
def chars : Json → List Char
  | .null => ['n', 'u', 'l', 'l']
  | .bool true => ['t', 'r', 'u', 'e']
  | .bool false => ['f', 'a', 'l', 's', 'e']
  | .int n => intChars n
  | .double x => x.toText.toList
  | .string s => quoted s
  | .array xs => '[' :: elementChars xs ++ [']']
  | .object ms => '{' :: memberChars ms ++ ['}']

/-- Elements with commas between them. -/
def elementChars : List Json → List Char
  | [] => []
  | [x] => chars x
  | x :: y :: r => chars x ++ ',' :: elementChars (y :: r)

/-- Members with commas between them. -/
def memberChars : List (String × Json) → List Char
  | [] => []
  | [(k, v)] => quoted k ++ ':' :: chars v
  | (k, v) :: m :: r => quoted k ++ ':' :: chars v ++ ',' :: memberChars (m :: r)

end

/-- The compact text of a value. -/
def compact (j : Json) : String := String.ofList (chars j)

/-- A new line at a depth of nesting. -/
def indent (depth : Nat) : List Char := '\n' :: List.replicate (2 * depth) ' '

mutual

/-- The indented text of a value that stands at a depth of nesting. -/
def indentedChars (depth : Nat) : Json → List Char
  | .array [] => ['[', ']']
  | .array xs => '[' :: indentedElements (depth + 1) xs ++ indent depth ++ [']']
  | .object [] => ['{', '}']
  | .object ms => '{' :: indentedMembers (depth + 1) ms ++ indent depth ++ ['}']
  | .null => chars .null
  | .bool b => chars (.bool b)
  | .int n => chars (.int n)
  | .double x => chars (.double x)
  | .string s => chars (.string s)

/-- Elements, each on its own line, with commas between them. -/
def indentedElements (depth : Nat) : List Json → List Char
  | [] => []
  | [x] => indent depth ++ indentedChars depth x
  | x :: y :: r => indent depth ++ indentedChars depth x ++ ',' :: indentedElements depth (y :: r)

/-- Members, each on its own line, with commas between them. -/
def indentedMembers (depth : Nat) : List (String × Json) → List Char
  | [] => []
  | [(k, v)] => indent depth ++ quoted k ++ ':' :: ' ' :: indentedChars depth v
  | (k, v) :: m :: r =>
    indent depth ++ quoted k ++ ':' :: ' ' :: indentedChars depth v ++ ',' :: indentedMembers depth (m :: r)

end

/-- The indented text of a value. -/
def pretty (j : Json) : String := String.ofList (indentedChars 0 j)

end Json

end AppBundler
