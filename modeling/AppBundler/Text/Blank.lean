import AppBundler.Text.Parts
/-!
# Blanks and lines

White space is the Unicode property `White_Space`, which `Char.isWhitespace` covers only in ASCII and
there without the vertical tab and the form feed. Trimming and splitting into lines go over `List Char`.
-/

namespace AppBundler

/-- The characters with the Unicode property `White_Space`. -/
def isBlank (c : Char) : Bool :=
  let n := c.toNat
  (9 ≤ n && n ≤ 13) || n = 32 || n = 0x85 || n = 0xA0 || n = 0x1680 || (0x2000 ≤ n && n ≤ 0x200A)
    || n = 0x2028 || n = 0x2029 || n = 0x202F || n = 0x205F || n = 0x3000

namespace Text

/-- Drops the blanks at the front. -/
def trimStart (s : List Char) : List Char := s.dropWhile isBlank

/-- Drops the blanks at the end. -/
def trimEnd (s : List Char) : List Char := (s.reverse.dropWhile isBlank).reverse

/-- Drops the blanks at both ends. -/
def trim (s : List Char) : List Char := trimEnd (trimStart s)

/-- The pieces between line feeds; one more than there are line feeds. -/
def splitLines : List Char → List (List Char)
  | [] => [[]]
  | c :: r =>
    if c = '\n' then [] :: splitLines r
    else
      match splitLines r with
      | [] => [[c]]
      | l :: ls => (c :: l) :: ls

/-- Drops a carriage return at the end. -/
def dropReturn (l : List Char) : List Char :=
  if l.getLast? = some '\r' then l.dropLast else l

/-- The lines of a text, each without its line end (`\n` or `\r\n`). Text after the last line feed is a
line of its own unless it is empty, and keeps a carriage return at its end. -/
def lines (s : List Char) : List (List Char) :=
  let pieces := splitLines s
  let whole := pieces.dropLast.map dropReturn
  match pieces.getLast? with
  | none | some [] => whole
  | some l => whole ++ [l]

end Text

end AppBundler
