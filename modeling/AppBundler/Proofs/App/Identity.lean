import Mathlib.Data.List.Perm.Basic
import Mathlib.Data.String.Basic
import AppBundler.App.Version
import AppBundler.Proofs.Digest.Collisions
import AppBundler.Proofs.Json.RoundTrip
/-!
# The hash of an app identifies it

What is hashed of an app is one JSON object, in which the scripts stand as a text of their own. Both texts are
told apart by what is in them, and the scripts are put in order first, so that two apps have one hash exactly when
they agree in all that is hashed: it does not matter in which order the scripts are listed, and nothing else is
left out.
-/

namespace AppBundler

/-! ## Objects of texts -/

namespace Json

/-- An object all of whose members are texts. -/
def texts (ms : List (String × String)) : Json := .object (ms.map fun m => (m.1, .string m.2))

/-- Texts are canonical already; only their order changes. -/
theorem canonical_texts (ms : List (String × String)) :
    (texts ms).canonical = .object (sortMembers (ms.map fun m => (m.1, .string m.2))) := by
  have hmembers : ∀ ms : List (String × String),
      canonicalMembers (ms.map fun m => (m.1, .string m.2)) = ms.map fun m => (m.1, .string m.2) := by
    intro ms
    induction ms with
    | nil => rfl
    | cons m ms ih => rw [List.map_cons, canonicalMembers, canonical, ih]
  rw [texts, canonical, hmembers]

/-- Objects of texts with one canonical text have the same members. -/
theorem perm_of_canonicalText_texts {ms ns : List (String × String)}
    (h : (texts ms).canonicalText = (texts ns).canonicalText) : ms.Perm ns := by
  have hfits : ∀ ms : List (String × String), Fits 1 (.object (sortMembers (ms.map fun m => (m.1, .string m.2)))) := by
    intro ms
    refine .object fun m hm => ?_
    obtain ⟨n, -, rfl⟩ := List.mem_map.mp ((List.mergeSort_perm _ _).mem_iff.mp hm)
    exact .string n.2
  rw [canonicalText, canonicalText, canonical_texts, canonical_texts] at h
  have hsorted := Json.object.inj ((hfits ms).eq_of_compact (hfits ns) h)
  have hperm : (ms.map fun m => (m.1, Json.string m.2)).Perm (ns.map fun m => (m.1, Json.string m.2)) :=
    ((List.mergeSort_perm _ _).symm.trans (.of_eq hsorted)).trans (List.mergeSort_perm _ _)
  refine (List.map_perm_map_iff ?_).mp hperm
  rintro ⟨k, v⟩ ⟨k', v'⟩ heq
  simpa using heq

end Json

/-- The file name and the hash of a script. -/
def Script.identity (s : Script) : String × String := (s.filename, s.hash)

namespace App

variable {a b : App} {v w : String}

/-! ## The scripts -/

/-- Scripts are hashed in an order that tells any two of them apart. -/
theorem hashedAtOrBefore_iff {x y : String × String} :
    hashedAtOrBefore x y = true ↔ x.1 < y.1 ∨ x.1 = y.1 ∧ x.2 ≤ y.2 := by
  simp [hashedAtOrBefore]

/-- **The scripts are hashed in one order** however they are listed. -/
theorem hashedScripts_eq_iff :
    a.hashedScripts = b.hashedScripts ↔ (a.scripts.map Script.identity).Perm (b.scripts.map Script.identity) := by
  have hsorted : ∀ l : List (String × String),
      (l.mergeSort hashedAtOrBefore).Pairwise fun x y => hashedAtOrBefore x y = true := by
    refine List.pairwise_mergeSort ?_ ?_
    · intro x y z hxy hyz
      rw [hashedAtOrBefore_iff] at hxy hyz ⊢
      rcases hxy with hxy | ⟨hxy, hxy'⟩
      · rcases hyz with hyz | ⟨hyz, -⟩
        · exact Or.inl (hxy.trans hyz)
        · exact Or.inl (hyz ▸ hxy)
      · rcases hyz with hyz | ⟨hyz, hyz'⟩
        · exact Or.inl (hxy ▸ hyz)
        · exact Or.inr ⟨hxy.trans hyz, hxy'.trans hyz'⟩
    · intro x y
      rw [Bool.or_eq_true, hashedAtOrBefore_iff, hashedAtOrBefore_iff]
      rcases lt_trichotomy x.1 y.1 with hlt | heq | hlt
      · exact Or.inl (Or.inl hlt)
      · exact (le_total x.2 y.2).imp (fun h => Or.inr ⟨heq, h⟩) (fun h => Or.inr ⟨heq.symm, h⟩)
      · exact Or.inr (Or.inl hlt)
  constructor
  · intro h
    exact ((List.mergeSort_perm _ _).symm.trans (.of_eq h)).trans (List.mergeSort_perm _ _)
  · intro h
    refine List.Perm.eq_of_pairwise ?_ (hsorted _) (hsorted _)
      ((List.mergeSort_perm _ _).trans (h.trans (List.mergeSort_perm _ _).symm))
    rintro x y - - hxy hyx
    rw [hashedAtOrBefore_iff] at hxy hyx
    rcases hxy with hxy | ⟨hname, hxy⟩
    · rcases hyx with hyx | ⟨hname, -⟩
      · exact absurd hxy hyx.not_gt
      · exact absurd hxy (hname ▸ lt_irrefl _)
    · rcases hyx with hyx | ⟨-, hyx⟩
      · exact absurd hyx (hname ▸ lt_irrefl _)
      · exact Prod.ext hname (le_antisymm hxy hyx)

/-- The text of the scripts tells them in the order in which they are hashed. -/
theorem scriptsText_eq_iff : a.scriptsText = b.scriptsText ↔ a.hashedScripts = b.hashedScripts := by
  have hfits : ∀ f : String × String → Json, (∀ x, Json.Fits 1 (f x)) → ∀ l, Json.Fits 2 (.array (List.map f l)) :=
    fun f hf l => .array (List.forall_mem_map.mpr fun x _ => hf x)
  constructor
  · intro h
    refine List.map_injective_iff.mpr ?_ (Json.array.inj ((hfits _ ?_ _).eq_of_compact (hfits _ ?_ _) h))
    · rintro ⟨f, h⟩ ⟨f', h'⟩ heq
      simpa using heq
    all_goals
      rintro ⟨filename, hash⟩
      exact .object (by simp [Json.Fits.string])
  · intro h
    rw [scriptsText, scriptsText, h]

/-! ## The whole app -/

/-- What is hashed of an app besides its scripts, with the text in which they stand. -/
def hashedTexts (a : App) (v : String) : List (String × String) :=
  [("id", a.id), ("slug", a.slug), ("scriptsJson", a.scriptsText)] ++
    (if v = unversionedFramework then [] else [("frameworkVersion", v)]) ++
    a.secretsHash.toList.map fun hash => ("secretsHash", hash)

/-- What is hashed of an app is an object of texts. -/
theorem hashed_eq_texts : a.hashed v = Json.texts (a.hashedTexts v) := by
  unfold hashed Json.texts hashedTexts
  split <;> simp

/-- The texts under a key. -/
def textsUnder (key : String) (ms : List (String × String)) : List String :=
  (ms.filter fun m => m.1 = key).map (·.2)

/-- Each key has its text, if any. -/
theorem textsUnder_hashedTexts (a : App) (v : String) :
    textsUnder "id" (a.hashedTexts v) = [a.id] ∧ textsUnder "slug" (a.hashedTexts v) = [a.slug] ∧
      textsUnder "secretsHash" (a.hashedTexts v) = a.secretsHash.toList ∧
      textsUnder "scriptsJson" (a.hashedTexts v) = [a.scriptsText] ∧
      textsUnder "frameworkVersion" (a.hashedTexts v) = if v = unversionedFramework then [] else [v] := by
  by_cases hv : v = unversionedFramework <;> cases hs : a.secretsHash <;> simp [textsUnder, hashedTexts, hv, hs]

/-- **What is hashed tells the app.** -/
theorem eq_of_hashedTexts_perm (h : (a.hashedTexts v).Perm (b.hashedTexts w)) :
    a.id = b.id ∧ a.slug = b.slug ∧ a.secretsHash = b.secretsHash ∧ a.scriptsText = b.scriptsText ∧ v = w := by
  have hunder : ∀ key, (textsUnder key (a.hashedTexts v)).Perm (textsUnder key (b.hashedTexts w)) :=
    fun key => (h.filter _).map _
  obtain ⟨hid, hslug, hsecrets, hscripts, hversion⟩ := textsUnder_hashedTexts a v
  obtain ⟨hid', hslug', hsecrets', hscripts', hversion'⟩ := textsUnder_hashedTexts b w
  refine ⟨?_, ?_, ?_, ?_, ?_⟩
  · simpa [hid, hid'] using hunder "id"
  · simpa [hslug, hslug'] using hunder "slug"
  · have hperm := hunder "secretsHash"
    rw [hsecrets, hsecrets'] at hperm
    cases ha : a.secretsHash <;> cases hb : b.secretsHash <;> simp_all
  · simpa [hscripts, hscripts'] using hunder "scriptsJson"
  · have hperm := hunder "frameworkVersion"
    rw [hversion, hversion'] at hperm
    by_cases hv : v = unversionedFramework <;> by_cases hw : w = unversionedFramework <;> simp_all

/-- What agrees in all that is hashed is hashed alike. -/
theorem hashed_congr (hid : a.id = b.id) (hslug : a.slug = b.slug) (hsecrets : a.secretsHash = b.secretsHash)
    (hscripts : (a.scripts.map Script.identity).Perm (b.scripts.map Script.identity)) :
    a.hashed v = b.hashed v := by
  rw [hashed, hashed, hid, hslug, hsecrets, scriptsText_eq_iff.mpr (hashedScripts_eq_iff.mpr hscripts)]

/-- **The hash of an app identifies it.** Without a collision between what is hashed, two apps have one hash
exactly when they have one id, one slug, one hash of secrets or none, the same scripts in any order, and are built
for one release of the framework. -/
theorem hash_eq_iff
    (hcollision : Sha256.IsCollisionFree {utf8Bytes (a.hashed v).canonicalText, utf8Bytes (b.hashed w).canonicalText}) :
    a.hash v = b.hash w ↔ a.id = b.id ∧ a.slug = b.slug ∧ a.secretsHash = b.secretsHash ∧
      (a.scripts.map Script.identity).Perm (b.scripts.map Script.identity) ∧ v = w := by
  constructor
  · intro hhash
    have htext := (Json.digest_eq_iff hcollision).mp hhash
    rw [hashed_eq_texts, hashed_eq_texts] at htext
    obtain ⟨hid, hslug, hsecrets, hscripts, hversion⟩ :=
      eq_of_hashedTexts_perm (Json.perm_of_canonicalText_texts htext)
    exact ⟨hid, hslug, hsecrets, hashedScripts_eq_iff.mp (scriptsText_eq_iff.mp hscripts), hversion⟩
  · rintro ⟨hid, hslug, hsecrets, hscripts, rfl⟩
    rw [hash, hash, hashed_congr hid hslug hsecrets hscripts]

/-- What is hashed of an app without scripts and secrets. -/
theorem canonicalText_hashed_bare (slug : String) :
    ((⟨"a", slug, none, []⟩ : App).hashed unversionedFramework).canonicalText =
      (Json.texts [("id", "a"), ("scriptsJson", "[]"), ("slug", slug)]).compact := by
  have hscripts : (⟨"a", slug, none, []⟩ : App).scriptsText = (Json.array []).compact := by
    simp [scriptsText, hashedScripts]
  have hempty : (Json.array []).compact = "[]" := by decide +kernel
  have hid : Json.keyAtOrBefore "id" "slug" = true := by decide +kernel
  have hid' : Json.keyAtOrBefore "id" "scriptsJson" = true := by decide +kernel
  have hslug : Json.keyAtOrBefore "slug" "scriptsJson" = false := by decide +kernel
  rw [hashed_eq_texts, Json.canonicalText, Json.canonical_texts]
  simp [hashedTexts, Json.sortMembers, List.mergeSort, Json.texts, hscripts, hempty, hid, hid', hslug]

/-- An app that lists its two scripts in the other order has the same hash, and an app under another slug has
another one. -/
theorem hash_eq_iff_orders_slugs :
    let main := Script.ofCode "app-1" "s1" "main.tsx" "export const x = 1;" 0
    let util := Script.ofCode "app-1" "s2" "util.ts" "export const y = 2;" 1
    (⟨"app-1", "demo", some "5e", [main, util]⟩ : App).hash "1.4.0" =
        (⟨"app-1", "demo", some "5e", [util, main]⟩ : App).hash "1.4.0" ∧
      (⟨"a", "b", none, []⟩ : App).hash unversionedFramework ≠
        (⟨"a", "c", none, []⟩ : App).hash unversionedFramework := by
  intro main util
  constructor
  · have hscripts := List.Perm.swap util.identity main.identity []
    have hsame : (⟨"app-1", "demo", some "5e", [main, util]⟩ : App).hashed "1.4.0" =
        (⟨"app-1", "demo", some "5e", [util, main]⟩ : App).hashed "1.4.0" := hashed_congr rfl rfl rfl hscripts
    refine (hash_eq_iff ?_).mpr ⟨rfl, rfl, rfl, hscripts, rfl⟩
    -- What is hashed is one text, so there is nothing to collide.
    rw [hsame, Set.pair_eq_singleton]
    exact Set.injOn_singleton _ _
  · intro hhash
    have hdistinct : Sha256.hash (utf8Bytes (Json.texts [("id", "a"), ("scriptsJson", "[]"), ("slug", "b")]).compact) ≠
        Sha256.hash (utf8Bytes (Json.texts [("id", "a"), ("scriptsJson", "[]"), ("slug", "c")]).compact) := by
      decide +kernel
    have hslug := ((hash_eq_iff ?_).mp hhash).2.1
    · exact absurd hslug (by decide)
    rw [canonicalText_hashed_bare, canonicalText_hashed_bare]
    exact Set.injOn_pair.mpr fun h => absurd h hdistinct

end App

end AppBundler
