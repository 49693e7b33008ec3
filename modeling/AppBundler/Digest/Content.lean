import AppBundler.Digest.Sha256
/-!
# Content digests

Content is addressed by the SHA-256 of its bytes, written as sixty-four hexadecimal digits in lower case.
-/

namespace AppBundler

/-- Bytes as hexadecimal digits in lower case, two for each. -/
def hexChars (bytes : List UInt8) : List Char :=
  bytes.flatMap fun b => [Nat.digitChar (b.toNat / 16), Nat.digitChar (b.toNat % 16)]

/-- The bytes of a text in UTF-8. -/
def utf8Bytes (s : String) : List UInt8 := s.toByteArray.data.toList

/-- The hexadecimal SHA-256 of a text. -/
def sha256Hex (s : String) : String := String.ofList (hexChars (Sha256.hash (utf8Bytes s)))

/-- The address of stored content. -/
structure ContentDigest where
  hex : String
deriving DecidableEq, Inhabited

namespace ContentDigest

/-- The digest of content. -/
def ofBytes (bytes : List UInt8) : ContentDigest := ⟨String.ofList (hexChars (Sha256.hash bytes))⟩

/-- Whether a character is a hexadecimal digit in either case. -/
def isHexDigit (c : Char) : Bool := c.isDigit || ('a' ≤ c && c ≤ 'f') || ('A' ≤ c && c ≤ 'F')

/-- Reads sixty-four hexadecimal digits, upper case taken as lower case. -/
def ofHex? (s : String) : Option ContentDigest :=
  if s.length = 64 && s.toList.all isHexDigit then some ⟨String.ofList (s.toList.map Char.toLower)⟩
  else none

/-- The first twelve digits. -/
def short (d : ContentDigest) : String := String.ofList (d.hex.toList.take 12)

end ContentDigest

end AppBundler
