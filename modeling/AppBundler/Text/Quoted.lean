import AppBundler.Text.Printable
/-!
# Quoted text

A text is shown to a reader between double quotes. A character that would not show, that would join the
one before it, or that has a meaning inside the quotes is written as an escape.
-/

namespace AppBundler

namespace Text

/-- The code point of a character in braces. -/
def braced (c : Char) : List Char := ['\\', 'u', '{'] ++ Nat.toDigits 16 c.toNat ++ ['}']

/-- How a character stands inside double quotes. -/
def escapeShown (c : Char) : List Char :=
  if c = '"' then ['\\', '"']
  else if c = '\\' then ['\\', '\\']
  else if c = '\n' then ['\\', 'n']
  else if c = '\r' then ['\\', 'r']
  else if c = '\t' then ['\\', 't']
  else if c = Char.ofNat 0 then ['\\', '0']
  else if isPrintable c then [c]
  else braced c

/-- A text in double quotes. -/
def shown (s : String) : String := String.ofList ('"' :: s.toList.flatMap escapeShown ++ ['"'])

/-- The path of a file in double quotes, where a single quote is escaped as well. -/
def shownPath (s : String) : String :=
  String.ofList ('"' :: (s.toList.flatMap fun c => if c = '\'' then ['\\', '\''] else escapeShown c) ++ ['"'])

end Text

end AppBundler
