import Mathlib.Data.List.TakeWhile
import AppBundler.Bundle.Specifier
import AppBundler.Proofs.Url.PlainNames
/-!
# Schemes of URLs

A URL that was read from a text, by itself or relative to another, has the scheme that the text begins with or that of
its base. So its scheme is one that a text may begin with.
-/

namespace AppBundler

namespace Url

variable {u base : Url} {scheme : String} {s r : List Char}

/-- A text that is a scheme. -/
def IsScheme (s : List Char) : Prop := s ≠ [] ∧ ∀ c ∈ s, Specifier.isSchemeChar c = true

instance (s : List Char) : Decidable (IsScheme s) :=
  have : Decidable (∀ c ∈ s, Specifier.isSchemeChar c = true) := List.decidableBAll _ s
  inferInstanceAs (Decidable (_ ∧ _))

theorem isSchemeChar_toLower {c : Char} (h : isSchemeChar c = true) : isSchemeChar c.toLower = true := by
  have hascii : ∀ n < 128, isSchemeChar (Char.ofNat n) = true → isSchemeChar (Char.ofNat n).toLower = true := by decide
  have hrange : c.toNat < 128 := by
    by_cases hplus : c = '+'
    · rw [hplus]
      decide
    · have hkept : FileName.isKept c = true := by
        simp only [isSchemeChar, Bool.or_eq_true, decide_eq_true_eq] at h
        simp only [FileName.isKept, Bool.or_eq_true, decide_eq_true_eq]
        rcases h with ((h | h) | h) | h
        · exact .inl (.inl (.inl (.inl h)))
        · exact absurd h hplus
        · exact .inl (.inr h)
        · exact .inl (.inl (.inl (.inr h)))
      have := toNat_of_isKept hkept
      omega
  have hlower := hascii _ hrange
  rw [Char.ofNat_toNat] at hlower
  exact hlower h

/-- What a text begins with is a scheme, and so it is in lower case. -/
theorem isScheme_of_scheme? (h : scheme? s = some (scheme, r)) : IsScheme scheme.toList := by
  cases s with
  | nil => cases h
  | cons c s =>
    rw [scheme?] at h
    split at h
    · cases h
    rename_i halpha
    split at h
    · obtain ⟨rfl, -⟩ := Prod.mk.inj (Option.some.inj h)
      have hc : isSchemeChar c = true := by
        simp only [Bool.not_eq_true', Bool.not_eq_false] at halpha
        simp [isSchemeChar, Char.isAlphanum, halpha]
      rw [String.toList_ofList, List.takeWhile_cons_of_pos hc]
      refine ⟨List.cons_ne_nil _ _, fun d hd => ?_⟩
      obtain ⟨e, he, rfl⟩ := List.mem_map.mp hd
      refine isSchemeChar_toLower ?_
      rcases List.mem_cons.mp he with rfl | he
      · exact hc
      · exact List.mem_takeWhile_imp he
    · cases h

/-! ## What reading makes of the scheme -/

/-- A reading gives no URL but ones of a scheme. -/
def Reads (scheme : String) (x : Result Url) : Prop := ∀ u, x = .ok u → u.scheme = scheme

namespace Reads

theorem error (e : UrlError) : Reads scheme (.error e) := nofun

theorem ok (h : u.scheme = scheme) : Reads scheme (.ok u) := by
  intro v hv
  rwa [← Except.ok.inj hv]

theorem bind {α : Type} {x : Result α} {f : α → Result Url} (h : ∀ a, Reads scheme (f a)) : Reads scheme (x >>= f) := by
  cases x with
  | error e => exact .error e
  | ok a => exact h a

end Reads

theorem reads_readAuthority (scheme : String) (s : List Char) : Reads scheme (readAuthority scheme s) := by
  unfold readAuthority
  dsimp only
  split
  · exact .error _
  split
  · exact .error _
  -- the host is one of two kinds, and a number may stand behind it
  split
  all_goals
    refine .bind fun host => ?_
    split
    · exact .error _
    split
    all_goals
      refine .bind fun number => ?_
      split
      · exact .error _
      · exact .ok rfl

theorem reads_readRelative (base : Url) (s : List Char) : Reads base.scheme (readRelative base s) := by
  unfold readRelative
  dsimp only
  split
  · exact .ok rfl
  · exact .ok rfl
  · exact .ok rfl
  split
  · split
    · split <;> exact reads_readAuthority _ _
    · exact .ok rfl
  · exact .ok rfl

theorem reads_readOther (scheme : String) (s : List Char) : Reads scheme (readOther scheme s) := by
  unfold readOther
  split
  · exact reads_readAuthority _ _
  · exact .ok rfl
  · exact .ok rfl

theorem reads_readAfterScheme (base : Option Url) (scheme : String) (s : List Char) :
    Reads scheme (readAfterScheme base scheme s) := by
  unfold readAfterScheme
  split
  · cases base with
    | none => exact reads_readAuthority _ _
    | some b =>
      dsimp only
      split
      · rename_i h
        rw [Bool.and_eq_true, decide_eq_true_eq, decide_eq_true_eq] at h
        exact h.2 ▸ reads_readRelative b s
      · exact reads_readAuthority _ _
  · exact reads_readOther _ _

theorem reads_readFileHost (s : List Char) : Reads "file" (readFileHost s) := by
  unfold readFileHost
  dsimp only
  split
  all_goals
    split
    all_goals
      refine .bind fun host => ?_
      split <;> exact .ok rfl

theorem scheme_readFileRelative {base : Option Url} (hbase : ∀ b ∈ base, b.scheme = "file") (s : List Char) :
    (readFileRelative base s).scheme = "file" := by
  cases base with
  | none => rfl
  | some b =>
    have hb := hbase b rfl
    unfold readFileRelative
    dsimp only
    split
    · exact hb
    · exact hb
    · exact hb
    · split
      · rfl
      · exact hb

theorem reads_readFile {base : Option Url} (hbase : ∀ b ∈ base, b.scheme = "file") (s : List Char) :
    Reads "file" (readFile base s) := by
  unfold readFile
  split
  · exact .ok (scheme_readFileRelative hbase s)
  · exact .ok rfl
  · exact reads_readFileHost _

/-- **The scheme of a URL** is the one that its text begins with, or that of the base. -/
theorem isScheme_read {base : Option Url} {text : String} (hbase : ∀ b ∈ base, IsScheme b.scheme.toList)
    (h : read base text = .ok u) : IsScheme u.scheme.toList := by
  unfold read at h
  dsimp only at h
  split at h
  · rename_i scheme rest hscheme
    split at h
    · have hfile : ∀ b ∈ base.filter fun b => b.scheme = "file", b.scheme = "file" := fun b hb =>
        of_decide_eq_true (Option.mem_filter_iff.mp hb).2
      rw [reads_readFile hfile _ u h]
      decide
    · rw [reads_readAfterScheme _ _ _ u h]
      exact isScheme_of_scheme? hscheme
  · split at h
    · cases h
    rename_i b
    have hb := hbase b rfl
    split at h
    · split at h
      · rwa [← Except.ok.inj h]
      · cases h
    split at h
    · rename_i hfile
      rw [reads_readFile (fun c hc => Option.some.inj hc ▸ hfile) _ u h]
      decide
    · rwa [reads_readRelative _ _ u h]

/-- A URL that was read from a text, by itself or relative to another. -/
inductive IsRead : Url → Prop where
  | parse {text : String} {u : Url} : Url.parse text = .ok u → IsRead u
  | join {base u : Url} {text : String} : IsRead base → base.join text = .ok u → IsRead u

theorem IsRead.isScheme (h : IsRead u) : IsScheme u.scheme.toList := by
  induction h with
  | parse h => exact isScheme_read (fun b hb => absurd hb (Option.not_mem_none b)) h
  | join _ h ih => exact isScheme_read (fun b hb => Option.some.inj hb ▸ ih) h

end Url

end AppBundler
