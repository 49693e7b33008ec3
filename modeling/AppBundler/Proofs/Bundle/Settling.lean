import AppBundler.Proofs.Bundle.Contents
import AppBundler.Proofs.Source.Rewriting
import AppBundler.Proofs.Text.Parts
import AppBundler.Proofs.Url.Relative
import AppBundler.Proofs.Url.Schemes
/-!
# Settled source texts

Settling a source text puts the final forms of its specifiers in their places. The text that this makes is read as the
old one was, and its specifiers are final: settling it again changes nothing. Two things can come between. A text that
has the marks of a closing tag and could not be read with elements may be read with them once specifiers were encoded;
and the URL of a module whose scheme is that of packages is no final form.

Another reader finds the URLs that the specifiers of a bundled module stand for. The two agree on final forms: the first
one leaves them as they are, and the second one reads them by themselves, wherever they stand.
-/

namespace AppBundler

open Import

/-! ## Final forms -/

namespace Specifier

/-- A text that begins with a scheme, and not with that of packages. -/
def HasOwnScheme (s : List Char) : Prop :=
  ∃ scheme rest, s = scheme ++ ':' :: rest ∧ Url.IsScheme scheme ∧ scheme ≠ ['n', 'p', 'm']

theorem HasOwnScheme.append {s : List Char} (h : HasOwnScheme s) (t : List Char) : HasOwnScheme (s ++ t) := by
  obtain ⟨scheme, rest, rfl, hscheme, hother⟩ := h
  exact ⟨scheme, rest ++ t, by simp, hscheme, hother⟩

/-- Web addresses begin with a scheme of their own. -/
theorem hasOwnScheme_https (rest : List Char) : HasOwnScheme ("https:".toList ++ rest) :=
  ⟨"https".toList, rest, rfl, by decide, by decide⟩

/-- The scheme of a text is what precedes its first colon. -/
theorem splitOnce?_scheme {scheme : List Char} (h : Url.IsScheme scheme) (rest : List Char) :
    Text.splitOnce? ':' (scheme ++ ':' :: rest) = some (scheme, rest) := by
  have hcolon : ':' ∉ scheme := fun hc => absurd (h.2 ':' hc) (by decide)
  exact Text.splitOnce?_eq_some_iff.mpr ⟨rfl, hcolon⟩

end Specifier

namespace ModuleHosts

variable {h : ModuleHosts} {referrer : Url} {specifier : String}

/-- What begins with a scheme of its own stays. -/
theorem settle?_of_hasOwnScheme (hspecifier : Specifier.HasOwnScheme specifier.toList) :
    h.settle? specifier referrer = none := by
  obtain ⟨scheme, rest, hs, hscheme, hother⟩ := hspecifier
  have hsplit : Text.splitOnce? ':' specifier.toList = some (scheme, rest) := by
    rw [hs, Specifier.splitOnce?_scheme hscheme]
  have hpackage : Text.dropFront? ['n', 'p', 'm', ':'] specifier.toList = none := by
    rw [Option.eq_none_iff_forall_ne_some]
    intro package hpackage
    have hnpm : Url.IsScheme ['n', 'p', 'm'] := by decide
    rw [Text.dropFront?_eq_some_iff.mp hpackage] at hsplit
    obtain ⟨rfl, -⟩ := Prod.mk.inj (Option.some.inj ((Specifier.splitOnce?_scheme hnpm package).symm.trans hsplit))
    exact hother rfl
  have hhas : Specifier.hasScheme specifier.toList = true := by
    rw [Specifier.hasScheme, hsplit]
    simp [hscheme.1, List.all_eq_true.mpr hscheme.2]
  rw [settle?, hpackage]
  dsimp only
  rw [if_pos hhas]

/-- **Final forms** are those of packages, of relative specifiers and of paths on the platform's host. -/
theorem cases_of_settle? {settled : String} (hsettled : h.settle? specifier referrer = some settled) :
    (∃ package, package ⊆ specifier.toList ∧ settled = h.cdnUrl ++ String.ofList package) ∨
    (∃ url, Specifier.isRelative specifier.toList = true ∧ referrer.join specifier = .ok url ∧ settled = url.text) ∨
    settled = "https://" ++ h.platformHost ++ specifier := by
  unfold settle? at hsettled
  dsimp only at hsettled
  split at hsettled
  · rename_i package hpackage
    refine .inl ⟨_, fun c hc => ?_, (Option.some.inj hsettled).symm⟩
    rw [Text.dropFront?_eq_some_iff.mp hpackage]
    exact List.mem_append_right _ ((List.dropWhile_sublist _).subset hc)
  split at hsettled
  · cases hsettled
  split at hsettled
  · rename_i hrelative
    split at hsettled
    · rename_i url hjoin
      exact .inr (.inl ⟨url, hrelative, hjoin, (Option.some.inj hsettled).symm⟩)
    · cases hsettled
  split at hsettled
  · exact .inr (.inr (Option.some.inj hsettled).symm)
  · refine .inl ⟨specifier.toList, List.Subset.refl _, ?_⟩
    rw [String.ofList_toList, Option.some.inj hsettled]

/-- Final forms begin with a scheme of their own, as long as referrers do. -/
theorem hasOwnScheme_of_settle? (hcdn : Specifier.HasOwnScheme h.cdnUrl.toList)
    (hbegins : Url.IsScheme referrer.scheme.toList) (hreferrer : referrer.scheme ≠ "npm") {settled : String}
    (hsettled : h.settle? specifier referrer = some settled) :
    Specifier.HasOwnScheme settled.toList := by
  obtain ⟨package, -, rfl⟩ | ⟨url, hrelative, hjoin, rfl⟩ | rfl := cases_of_settle? hsettled
  · rw [String.toList_append]
    exact hcdn.append _
  · obtain ⟨rest, hrest⟩ := url.exists_text_eq
    have hscheme : url.scheme = referrer.scheme := Url.scheme_join_relative hrelative hjoin
    refine ⟨url.scheme.toList, rest, hrest, hscheme ▸ hbegins, fun hnpm => hreferrer ?_⟩
    rw [← hscheme]
    exact String.toList_injective hnpm
  · rw [String.toList_append, String.toList_append, List.append_assoc]
    exact (Specifier.hasOwnScheme_https "//".toList).append _

/-! ## Characters of final forms -/

/-- The characters that no specifier may be given whatever its quotes are. -/
def unclean : List Char := ['"', '\'', '\\', '<', '>', '\n']

/-- A text that may stand in any specifier. -/
def IsClean (s : List Char) : Prop := ∀ c ∈ s, c ∉ unclean

instance : DecidablePred IsClean := List.decidableBAll _

/-- Final forms are spelled in clean characters and in those of the specifiers. -/
theorem forall_mem_of_settle? (hcdn : IsClean h.cdnUrl.toList) (hhost : IsClean h.platformHost.toList)
    (hreferrer : IsClean referrer.text.toList) {settled : String}
    (hsettled : h.settle? specifier referrer = some settled) :
    ∀ c ∈ settled.toList, c ∉ unclean ∨ c ∈ specifier.toList := by
  have hclean {s : List Char} (hs : IsClean s) : ∀ c ∈ s, c ∉ unclean ∨ c ∈ specifier.toList :=
    fun c hc => Or.inl (hs c hc)
  have hold : ∀ c ∈ specifier.toList, c ∉ unclean ∨ c ∈ specifier.toList := fun c hc => Or.inr hc
  obtain ⟨package, hpackage, rfl⟩ | ⟨url, hrelative, hjoin, rfl⟩ | rfl := cases_of_settle? hsettled
  · rw [String.toList_append, String.toList_ofList]
    exact List.forall_mem_append.mpr ⟨hclean hcdn, fun c hc => hold c (hpackage hc)⟩
  · -- what the reading of a path writes is clean as well
    have hwritten : ∀ c ∈ Url.writtenChars, c ∉ unclean ∨ c ∈ specifier.toList := hclean (by decide)
    have hbase : Url.IsSpelled _ referrer := (Url.isSpelled_iff hwritten).mpr (hclean hreferrer)
    exact (Url.isSpelled_iff hwritten).mp (hbase.join_relative hwritten hold hrelative hjoin)
  · rw [String.toList_append, String.toList_append]
    simp only [List.forall_mem_append]
    exact ⟨⟨hclean (by decide), hclean hhost⟩, hold⟩

/-! ## Settling -/

section Settling

variable (hcdn : IsClean h.cdnUrl.toList) (hhost : IsClean h.platformHost.toList)
  (hreferrer : IsClean referrer.text.toList)
include hcdn hhost hreferrer

/-- Final forms fit where the specifiers stand. -/
theorem renews_settle? (imports : List Import) : Renews (fun specifier => h.settle? specifier referrer) imports := by
  intro i _ hplain
  have hchars : ∀ c ∈ (i.renewed fun specifier => h.settle? specifier referrer).toList,
      c ∉ unclean ∨ c ∈ i.specifier.toList := by
    cases hsettled : h.settle? i.specifier referrer with
    | none =>
      rw [renewed, hsettled]
      exact fun c hc => Or.inr hc
    | some settled =>
      rw [renewed, hsettled, Option.getD_some]
      exact forall_mem_of_settle? hcdn hhost hreferrer hsettled
  refine ⟨fun c hc => ?_, fun q hq hfits c hc => ?_⟩
  · rcases hchars c hc with hclean | hold
    · exact fun hmem => hclean (List.Sublist.subset (by decide) hmem)
    · exact hplain c hold
  · rcases hchars c hc with hclean | hold
    · have hne {d : Char} (hd : d ∈ unclean) : c ≠ d := fun heq => hclean (heq ▸ hd)
      have hquote : q ∈ unclean := by rcases hq with rfl | rfl <;> decide
      exact ⟨hne hquote, hne (by decide), hne (by decide)⟩
    · exact hfits c hold

end Settling

/-- A second settling has nothing to do. -/
theorem settle?_renewed (hcdn : Specifier.HasOwnScheme h.cdnUrl.toList) (hread : referrer.IsRead)
    (hreferrer : referrer.scheme ≠ "npm") (i : Import) :
    h.settle? (i.renewed fun specifier => h.settle? specifier referrer) referrer = none := by
  cases hsettled : h.settle? i.specifier referrer with
  | none => rwa [renewed, hsettled]
  | some settled =>
    rw [renewed, hsettled]
    exact settle?_of_hasOwnScheme (hasOwnScheme_of_settle? hcdn hread.isScheme hreferrer hsettled)

/-- What settling makes of a source text with some imports. -/
structure Settles (h : ModuleHosts) (referrer : Url) (source : String) (imports : List Import) (output : String) :
    Prop where
  /-- The source text is what is outside its specifiers, and these. -/
  sourceEq : source.toList = weave (outside 0 source.toList imports) (imports.map fun i => i.specifier.toList)
  /-- What it makes is the same, and the final forms. -/
  outputEq : output.toList = weave (outside 0 source.toList imports)
    (imports.map fun i => ((h.settle? i.specifier referrer).getD i.specifier).toList)
  /-- The imports are the same but for their final forms, unless elements are read that were not before. -/
  keepsImports : (Lexer.readsElements output.toList = true → Lexer.readsElements source.toList = true) →
    ∃ imports', scan output = .ok imports' ∧
      List.Forall₂ (fun i i' => i'.kind = i.kind ∧ i'.specifier = (h.settle? i.specifier referrer).getD i.specifier)
        imports imports' ∧
      outside 0 output.toList imports' = outside 0 source.toList imports
  /-- Then nothing is left to settle, unless the text is one of a package. -/
  isSettled : (Lexer.readsElements output.toList = true → Lexer.readsElements source.toList = true) →
    referrer.scheme ≠ "npm" → h.settleSource output referrer = .ok output

/-- The hosts of the default settings. -/
def defaultHosts : ModuleHosts := ⟨"https://esm.sh/", "applet.run"⟩

theorem isClean_defaultHosts :
    IsClean defaultHosts.cdnUrl.toList ∧ IsClean defaultHosts.platformHost.toList := by
  decide

/-- The URL of a script. -/
def mainScript : Url := ⟨"file", some ⟨"", "", none⟩, "/src/main.tsx", none, none⟩

theorem parse_mainScript :
    Url.parse "file:///src/main.tsx" = .ok mainScript ∧ IsClean mainScript.text.toList :=
  ⟨rfl, by decide⟩

/-- A source text with a specifier of a script and one of a package. -/
def mainSource : String := "import './a b.ts';\nexport * from \"é\";\n"

/-- The imports of that text. -/
def mainImports : List Import := [⟨"./a b.ts", 8, 16, .static⟩, ⟨"é", 34, 36, .reExport⟩]

/-- A text with the mark of a closing tag in a comment. No element can be read in it, because a brace in the specifier
is not closed. -/
def tagSource : String := "const f = <T>(x: T) => x;\nimport \"./a\x7bb\";\n// </T> import \"./x.ts\";\n"

/-- The text that it is settled to, in which an element ends in the comment. -/
def tagOutput : String := "const f = <T>(x: T) => x;\nimport \"file:///src/a%7Bb\";\n// </T> import \"./x.ts\";\n"

/-- The URL of a module of a package. -/
def packageModule : Url := ⟨"npm", some ⟨"", "a", none⟩, "/b.ts", none, none⟩

end ModuleHosts

/-! ## Final specifiers -/

namespace Specifier

variable {s scheme rest : List Char}

/-- A scheme is a specifier's own when it is not that of packages. -/
theorem hasOwnScheme_iff :
    HasOwnScheme s ↔ hasScheme s = true ∧ Text.dropFront? ['n', 'p', 'm', ':'] s = none := by
  have hnpm : Url.IsScheme ['n', 'p', 'm'] := by decide
  constructor
  · rintro ⟨scheme, rest, rfl, hscheme, hother⟩
    have hsplit := splitOnce?_scheme hscheme rest
    refine ⟨?_, Option.eq_none_iff_forall_ne_some.mpr fun package hpackage => ?_⟩
    · rw [hasScheme, hsplit]
      simp [hscheme.1, List.all_eq_true.mpr hscheme.2]
    · -- the two schemes end at the first colon
      rw [Text.dropFront?_eq_some_iff.mp hpackage] at hsplit
      exact hother (Prod.mk.inj (Option.some.inj ((splitOnce?_scheme hnpm package).symm.trans hsplit))).1.symm
  · rintro ⟨hhas, hpackage⟩
    unfold hasScheme at hhas
    split at hhas
    · rename_i scheme rest hsplit
      have hs := (Text.splitOnce?_eq_some_iff.mp hsplit).1
      rw [Bool.and_eq_true, Bool.not_eq_true', List.isEmpty_eq_false_iff, List.all_eq_true] at hhas
      refine ⟨scheme, rest, hs, hhas, ?_⟩
      rintro rfl
      exact absurd (hpackage.symm.trans (Text.dropFront?_eq_some_iff.mpr hs)) nofun
    · cases hhas

/-- What begins with a scheme of its own is read by itself. -/
theorem resolve_of_hasOwnScheme {specifier : String} (h : HasOwnScheme specifier.toList) (base : Url) :
    resolve specifier base = (Url.parse specifier).mapError .invalid := by
  rw [resolve, if_pos (hasOwnScheme_iff.mp h).1]

end Specifier

namespace ModuleHosts

variable {h : ModuleHosts} {referrer : Url} {specifier : String}

/-- Nothing is left to tell of a final specifier. -/
structure IsFinal (h : ModuleHosts) (specifier : String) : Prop where
  /-- No module gives it another form. -/
  stays : ∀ referrer, h.settle? specifier referrer = none
  /-- It is never taken for the name of a package. -/
  notBare : ∀ base text, Specifier.resolve specifier base ≠ .error (.bare text)
  /-- It stands for the same URL, or fails to, in every module. -/
  sameEverywhere : ∀ base base', Specifier.resolve specifier base = Specifier.resolve specifier base'

/-- A module whose path is not opaque gives every other specifier another form. -/
theorem settle?_eq_none_iff (hbase : referrer.isOpaque = false) :
    h.settle? specifier referrer = none ↔ Specifier.HasOwnScheme specifier.toList := by
  refine ⟨fun hstays => ?_, settle?_of_hasOwnScheme⟩
  unfold settle? at hstays
  dsimp only at hstays
  split at hstays
  · cases hstays
  rename_i hpackage
  split at hstays
  · rename_i hhas
    exact Specifier.hasOwnScheme_iff.mpr ⟨hhas, hpackage⟩
  split at hstays
  · -- the one form that is left is the text of a URL, and there is one
    rename_i hrelative
    obtain ⟨url, hjoin⟩ := Url.exists_join_relative hbase hrelative
    rw [hjoin] at hstays
    cases hstays
  split at hstays <;> cases hstays

/-- **Final specifiers** are those with a scheme of their own. -/
theorem isFinal_iff : h.IsFinal specifier ↔ Specifier.HasOwnScheme specifier.toList := by
  constructor
  · intro hfinal
    have hscript : mainScript.isOpaque = false := rfl
    exact (settle?_eq_none_iff hscript).mp (hfinal.stays mainScript)
  · intro hown
    refine ⟨fun referrer => settle?_of_hasOwnScheme hown, fun base text => ?_, fun base base' => ?_⟩
    · rw [Specifier.resolve_of_hasOwnScheme hown]
      cases Url.parse specifier <;> exact nofun
    · rw [Specifier.resolve_of_hasOwnScheme hown, Specifier.resolve_of_hasOwnScheme hown]

/-- **What a specifier becomes is final**: the form that a module gives it, or the specifier itself where it is given
none. Packages must come from a URL with a scheme, and the module's own URL, which is no package's, must be a base. -/
theorem isFinal_getD_settle? (hcdn : Specifier.HasOwnScheme h.cdnUrl.toList)
    (hscheme : Url.IsScheme referrer.scheme.toList) (hother : referrer.scheme ≠ "npm")
    (hbase : referrer.isOpaque = false) (specifier : String) :
    h.IsFinal ((h.settle? specifier referrer).getD specifier) := by
  rw [isFinal_iff]
  cases hsettled : h.settle? specifier referrer with
  | none => exact (settle?_eq_none_iff hbase).mp hsettled
  | some settled => exact hasOwnScheme_of_settle? hcdn hscheme hother hsettled

/-- A specifier of a script becomes final, blank and colon and all. -/
theorem isFinal_getD_settle?_main :
    defaultHosts.settle? "../a b/:c.ts" mainScript = some "file:///a%20b/:c.ts" ∧
      defaultHosts.IsFinal ((defaultHosts.settle? "../a b/:c.ts" mainScript).getD "../a b/:c.ts") := by
  have hcdn : Specifier.HasOwnScheme defaultHosts.cdnUrl.toList := Specifier.hasOwnScheme_https "//esm.sh/".toList
  have hscheme : Url.IsScheme mainScript.scheme.toList := by decide
  exact ⟨rfl, isFinal_getD_settle? hcdn hscheme (by decide) rfl _⟩

end ModuleHosts

end AppBundler
