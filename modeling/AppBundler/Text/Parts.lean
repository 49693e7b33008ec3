/-!
# Parts of texts

A text is taken apart at a character, at its front or at its end.
-/

namespace AppBundler

namespace Text

/-- The pieces between the occurrences of `sep`; one more than there are occurrences. -/
def splitAtChar (sep : Char) : List Char → List (List Char)
  | [] => [[]]
  | c :: r =>
    if c = sep then [] :: splitAtChar sep r
    else
      match splitAtChar sep r with
      | [] => [[c]]
      | l :: ls => (c :: l) :: ls

/-- What follows `front` in `s`, when `s` starts with it. -/
def dropFront? : (front s : List Char) → Option (List Char)
  | [], s => some s
  | _ :: _, [] => none
  | p :: ps, c :: s => if p = c then dropFront? ps s else none

/-- Whether `part` stands somewhere in the text. -/
def hasPart (part : List Char) : List Char → Bool
  | [] => part.isEmpty
  | c :: r => (dropFront? part (c :: r)).isSome || hasPart part r

/-- The number of bytes of a text in UTF-8. -/
def byteLength (s : List Char) : Nat := s.foldl (fun n c => n + c.utf8Size) 0

/-- What precedes `back` in `s`, when `s` ends with it. -/
def dropBack? (back s : List Char) : Option (List Char) :=
  (dropFront? back.reverse s.reverse).map List.reverse

/-- Whether a text begins with another one. -/
def beginsWith (front s : List Char) : Bool := front.isPrefixOf s

/-- Whether a text ends with another one. -/
def endsWith (back s : List Char) : Bool := back.isSuffixOf s

/-- A text split at the first occurrence of a character, which is in neither part. -/
def splitOnce? (sep : Char) : List Char → Option (List Char × List Char)
  | [] => none
  | c :: r => if c = sep then some ([], r) else (splitOnce? sep r).map fun (a, b) => (c :: a, b)

end Text

end AppBundler
