import AppBundler.Text.Composed
import AppBundler.Text.Direction
import AppBundler.Text.Joining
import AppBundler.Url.DomainMapping
import AppBundler.Url.Encoding
import AppBundler.Url.Punycode
/-!
# Domain names

A domain name is brought into the form in which names are looked up. Its characters are replaced by plain ones
and the text is composed; then each label is checked, and a label with characters above ASCII is written in
Punycode. A label that is in Punycode already must be what its own characters would be written as.
-/

namespace AppBundler

namespace Url

/-- Characters that no domain name may have. -/
def isForbiddenInDomain (c : Char) : Bool :=
  isControl c || ['\x20', '#', '/', ':', '<', '>', '?', '@', '[', '\\', ']', '^', '|', '%'].contains c

/-- The pieces between points. -/
def labels (s : List Char) : List (List Char) :=
  s.foldr (fun c ls =>
    match ls with
    | [] => [[c]]
    | l :: r => if c = '.' then [] :: l :: r else (c :: l) :: r) [[]]

/-- The text of bytes in UTF-8. -/
def decodeUtf8? (bytes : List UInt8) : Option (List Char) :=
  (String.fromUTF8? (ByteArray.mk bytes.toArray)).map String.toList

/-! ## Checks of a label -/

/-- A label that is kept as it is when its characters are replaced and composed. -/
def isPlain (label : List Char) : Bool :=
  label.all (fun c => DomainMapping.replacement c = [c]) && composed label = label

/-- The character that keeps letters from joining. -/
def nonJoiner : Char := Char.ofNat 0x200C

/-- The character that makes letters join. -/
def joiner : Char := Char.ofNat 0x200D

/-- The nearest character that matters for joining. -/
def nearestLetter? (s : List Char) : Option Char := (s.dropWhile isTransparent).head?

/-- Whether each joiner follows a mark that ties characters together, or keeps apart two letters that would
join. The text before comes in reverse. -/
def joinersFit (before : List Char) : List Char → Bool
  | [] => true
  | c :: r =>
    let tied := before.head?.any fun b => combiningClass b = viramaClass
    let apart := !before.isEmpty && (nearestLetter? before).any joinsNext && (nearestLetter? r).any joinsPrevious
    (if c = nonJoiner then tied || apart else c ≠ joiner || tied) && joinersFit (c :: before) r

/-- The most characters that a label with characters above ASCII may have. -/
def longestLabel : Nat := 1000

/-- Whether a label with characters above ASCII may stand in a domain name. -/
def isValidLabel (label : List Char) : Bool :=
  !label.any DomainMapping.isRefused && !label.head?.any isMark && joinersFit [] label &&
    label.length ≤ longestLabel

/-- Whether a label can be told from its neighbours when it is written among labels of the other direction:
it begins with a letter, goes on in the direction of that letter and ends with a letter or digit. -/
def directionFits (label : List Char) : Bool :=
  match label.map direction with
  | [] => true
  | first :: rest =>
    let last := ((first :: rest).reverse.dropWhile (· = .mark)).head?
    match first with
    | .left =>
      rest.all (fun d => d ≠ .right && d ≠ .arabicNumber) && (last = some .left || last = some .europeanNumber)
    | .right =>
      rest.all (· ≠ .left) && !(rest.contains .europeanNumber && rest.contains .arabicNumber) &&
        (last = some .right || last = some .europeanNumber || last = some .arabicNumber)
    | _ => false

/-! ## Reading a name -/

/-- A label of a domain name. -/
structure Label where
  /-- The characters that it stands for. -/
  characters : List Char
  /-- The form in which it is looked up. -/
  ascii : List Char

/-- What a label in Punycode begins with. -/
def punycodeMark : List Char := ['x', 'n', '-', '-']

/-- The label in Punycode that stands for characters which it may stand for. -/
def punycodeLabel? (s : List Char) : Option Label :=
  match Punycode.decode? s with
  | none => none
  | some label =>
    if label.any (fun c => 0x80 ≤ c.toNat) && Punycode.encode label = s && isPlain label && isValidLabel label &&
        !punycodeMark.isPrefixOf label then
      some ⟨label, punycodeMark ++ s⟩
    else none

/-- A label from its plain characters. -/
def label? (label : List Char) : Option Label :=
  if punycodeMark.isPrefixOf label then punycodeLabel? (label.drop punycodeMark.length)
  else if label.all fun c => c.toNat < 0x80 then some ⟨label, label⟩
  else if isValidLabel label then some ⟨label, punycodeMark ++ Punycode.encode label⟩
  else none

/-- Whether a label has a character that is written from right to left. -/
def hasRightToLeft (label : List Char) : Bool :=
  label.any fun c => direction c = .right || direction c = .arabicNumber

/-- A domain name in the form in which it is looked up. -/
def domainToAscii? (s : List Char) : Option (List Char) := do
  let s ← decodeUtf8? (percentDecode s)
  let ls ← (labels (composed (s.flatMap DomainMapping.replacement))).mapM label?
  let characters := ls.map Label.characters
  let name := List.intercalate ['.'] (ls.map Label.ascii)
  if (characters.any hasRightToLeft && !characters.all directionFits) || name.any isForbiddenInDomain then none
  else some name

end Url

end AppBundler
