import Mathlib.Data.Set.Function
import AppBundler.Json.Digest
/-!
# Digests tell contents apart

There are more contents than hashes, so that no hash function tells all contents apart. What is proved with the
help of digests is therefore proved for contents among which there is no collision. The way from the content to
the written digest loses nothing else: texts have different bytes, and hashes have different digits.
-/

namespace AppBundler

/-- No two of some messages have one hash. -/
def Sha256.IsCollisionFree (messages : Set (List UInt8)) : Prop := messages.InjOn Sha256.hash

/-- Messages without a collision have none among fewer of them. -/
theorem Sha256.IsCollisionFree.mono {s t : Set (List UInt8)} (h : IsCollisionFree t) (hst : s ⊆ t) :
    IsCollisionFree s :=
  Set.InjOn.mono hst h

/-- The digits of a byte tell the byte. -/
theorem digitChars_injective : ∀ a b : UInt8,
    Nat.digitChar (a.toNat / 16) = Nat.digitChar (b.toNat / 16) →
      Nat.digitChar (a.toNat % 16) = Nat.digitChar (b.toNat % 16) → a = b := by
  have hdigit : ∀ m < 16, ∀ n < 16, Nat.digitChar m = Nat.digitChar n → m = n := by decide
  intro a b hhigh hlow
  have ha := a.toNat_lt
  have hb := b.toNat_lt
  have hdiv := hdigit _ (by omega) _ (by omega) hhigh
  have hmod := hdigit _ (by omega) _ (by omega) hlow
  exact UInt8.toNat_inj.mp (by omega)

/-- The digits of bytes tell the bytes. -/
theorem hexChars_injective : Function.Injective hexChars := by
  intro s t h
  induction s generalizing t with
  | nil =>
    cases t with
    | nil => rfl
    | cons b t => simp [hexChars] at h
  | cons a s ih =>
    cases t with
    | nil => simp [hexChars] at h
    | cons b t =>
      simp only [hexChars, List.flatMap_cons, List.cons_append, List.nil_append, List.cons.injEq] at h
      obtain ⟨hhigh, hlow, hrest⟩ := h
      rw [digitChars_injective a b hhigh hlow, ih hrest]

/-- The bytes of a text tell the text. -/
theorem utf8Bytes_injective : Function.Injective utf8Bytes := by
  intro s t h
  rw [← String.toByteArray_inj]
  exact ByteArray.ext (Array.toList_inj.mp h)

/-- Contents have one digest exactly when they have one hash. -/
theorem ContentDigest.ofBytes_eq_iff {s t : List UInt8} : ofBytes s = ofBytes t ↔ Sha256.hash s = Sha256.hash t := by
  rw [ofBytes, ofBytes, ContentDigest.mk.injEq, String.ofList_inj]
  exact hexChars_injective.eq_iff

/-- Texts have one digest exactly when their bytes have one hash. -/
theorem sha256Hex_eq_iff {s t : String} :
    sha256Hex s = sha256Hex t ↔ Sha256.hash (utf8Bytes s) = Sha256.hash (utf8Bytes t) := by
  rw [sha256Hex, sha256Hex, String.ofList_inj]
  exact hexChars_injective.eq_iff

/-- **Without a collision, values have one digest exactly when they have one canonical text.** -/
theorem Json.digest_eq_iff {i j : Json}
    (h : Sha256.IsCollisionFree {utf8Bytes i.canonicalText, utf8Bytes j.canonicalText}) :
    i.digest = j.digest ↔ i.canonicalText = j.canonicalText := by
  rw [digest, digest, sha256Hex_eq_iff]
  constructor
  · intro heq
    exact utf8Bytes_injective (h (by simp) (by simp) heq)
  · intro heq
    rw [heq]

end AppBundler
