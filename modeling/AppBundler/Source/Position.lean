/-!
# Places in a source text

A place counts bytes from the start, lines from one and characters of the line from one. Readers never look
at places; a place is told from the characters before it.
-/

namespace AppBundler

/-- A place in a source text. -/
structure Position where
  /-- Bytes before the place, in UTF-8. -/
  offset : Nat
  /-- Line feeds before the place, and one. -/
  line : Nat
  /-- Characters between the last line feed and the place, and one. -/
  column : Nat
deriving DecidableEq, Inhabited

namespace Position

/-- The place before the first character. -/
def start : Position := ⟨0, 1, 1⟩

/-- The place after one more character. -/
def step (p : Position) (c : Char) : Position :=
  if c = '\n' then ⟨p.offset + c.utf8Size, p.line + 1, 1⟩
  else ⟨p.offset + c.utf8Size, p.line, p.column + 1⟩

/-- The place after a text that begins at `p`. -/
def after (p : Position) (text : List Char) : Position := text.foldl step p

end Position

end AppBundler
