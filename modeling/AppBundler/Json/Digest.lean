import AppBundler.Json.Canonical
import AppBundler.Digest.Content
/-!
# Digests of JSON values

A value is hashed by its canonical text, so the order in which the members of an object were written does not
matter.
-/

namespace AppBundler

/-- The hexadecimal SHA-256 of the canonical text. -/
def Json.digest (j : Json) : String := sha256Hex j.canonicalText

end AppBundler
