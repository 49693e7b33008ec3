import AppBundler.Text.CombiningClass
import AppBundler.Text.Composite
/-!
# Composed texts

Texts that look the same may be spelled differently. In the composed form every character is split into its
parts, the marks of each cluster are put in the order of their classes, and what can be joined is joined again,
so that each text has one spelling.
-/

namespace AppBundler

/-- Puts a character in front of an ordered text. Marks of a smaller class go before a mark. -/
def placeInOrder (c : Char) : List Char → List Char
  | [] => [c]
  | d :: r =>
    if combiningClass d ≠ 0 && combiningClass d < combiningClass c then d :: placeInOrder c r else c :: d :: r

/-- The characters with the marks of each cluster in the order of their classes. -/
def inMarkOrder (s : List Char) : List Char := s.foldr placeInOrder []

/-- A text while its characters are joined. -/
structure Composition where
  /-- The text before the cluster that is being read. -/
  before : List Char
  /-- The character that the cluster starts with, with the marks that joined it. -/
  starter : Option Char
  /-- The marks that did not join it. -/
  marks : List Char

namespace Composition

/-- The text read so far. -/
def text (k : Composition) : List Char := k.before ++ k.starter.toList ++ k.marks

/-- Whether nothing stands between the start of the cluster and a character after it: no mark, or only marks
of smaller classes. -/
def reaches (k : Composition) (c : Char) : Bool :=
  k.marks.getLast?.all fun m => combiningClass m < combiningClass c

/-- Reads one character. -/
def add (k : Composition) (c : Char) : Composition :=
  match if k.reaches c then k.starter.bind fun s => Composite.join? s c else none with
  | some joined => { k with starter := some joined }
  | none => if combiningClass c = 0 then ⟨k.text, some c, []⟩ else { k with marks := k.marks ++ [c] }

end Composition

/-- The composed form of a text. -/
def composed (s : List Char) : List Char :=
  ((inMarkOrder (s.flatMap Composite.parts)).foldl Composition.add ⟨[], none, []⟩).text

end AppBundler
