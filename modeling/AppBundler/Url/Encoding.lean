/-!
# Percent encoding

A character that may not stand for itself is written as the bytes of its UTF-8 form, each as a percent sign
and two hexadecimal digits. Which characters these are depends on the part of the URL; those above ASCII
always are.
-/

namespace AppBundler

namespace Url

/-- A hexadecimal digit in upper case. -/
def upperHex (n : Nat) : Char := (Nat.digitChar n).toUpper

/-- A byte as a percent sign and two digits. -/
def percentByte (b : UInt8) : List Char := ['%', upperHex (b.toNat / 16), upperHex (b.toNat % 16)]

/-- A character as the encoded bytes of its UTF-8 form. -/
def percentChar (c : Char) : List Char := (String.singleton c).toByteArray.data.toList.flatMap percentByte

/-- A control character of ASCII. -/
def isControl (c : Char) : Bool := c.toNat < 0x20 || c.toNat = 0x7F

/-- A character encoded when it is a control, above ASCII or one of `reserved`. -/
def encodeChar (reserved : List Char) (c : Char) : List Char :=
  if isControl c || 0x80 ≤ c.toNat || reserved.contains c then percentChar c else [c]

/-- What is encoded in a fragment besides controls. -/
def fragmentSet : List Char := [' ', '"', '<', '>', '\x60']

/-- What is encoded in a path besides controls. -/
def pathSet : List Char := fragmentSet ++ ['#', '?', '{', '}']

/-- What is encoded in a user name or a password besides controls. -/
def userinfoSet : List Char := pathSet ++ ['/', ':', ';', '=', '@', '[', '\\', ']', '^', '|']

/-- What is encoded in a query besides controls. -/
def querySet (special : Bool) : List Char := [' ', '"', '#', '<', '>'] ++ if special then ['\''] else []

/-- The value of a hexadecimal digit. -/
def hexValue? (c : Char) : Option Nat :=
  if c.isDigit then some (c.toNat - 48)
  else if 'a' ≤ c && c ≤ 'f' then some (c.toNat - 87)
  else if 'A' ≤ c && c ≤ 'F' then some (c.toNat - 55)
  else none

/-- The bytes of a text, encoded ones decoded. -/
def percentDecode : List Char → List UInt8
  | [] => []
  | c :: r =>
    let plain := (String.singleton c).toByteArray.data.toList
    match c, r with
    | '%', a :: b :: r' =>
      match hexValue? a, hexValue? b with
      | some x, some y => UInt8.ofNat (16 * x + y) :: percentDecode r'
      | _, _ => plain ++ percentDecode (a :: b :: r')
    | _, r => plain ++ percentDecode r

end Url

end AppBundler
