import Mathlib.Data.List.Nodup
import AppBundler.Proofs.Bundle.Graph
import AppBundler.Proofs.Bundle.Origins
/-!
# What a bundle holds under the URL of a script

A script is asked for under its own URL and bundled under the name of a module that may hold elements, so that
the URL of a script `x.ts` redirects to that of `x.tsx`. The script that is bundled there is the *twin* of that
name, if the app has one, and not the script that was looked for. Otherwise it is the script itself, unless the
network handed over a module under that name before the script arrived.
-/

namespace AppBundler

/-- The text of a URL begins with its scheme. -/
theorem Url.exists_text_eq (u : Url) : ∃ rest, u.text.toList = u.scheme.toList ++ ':' :: rest := by
  have hbefore : ∃ rest, u.beforePath.toList = u.scheme.toList ++ ':' :: rest := by
    unfold beforePath
    cases u.authority <;> simp
  obtain ⟨rest, hrest⟩ := hbefore
  simp only [text, beforeFragment, beforeQuery, String.toList_append, hrest, List.append_assoc, List.cons_append]
  exact ⟨_, rfl⟩

/-! ## Names with elements -/

/-- A name with elements is no name without them. -/
theorem dropBack?_tsx (stem : List Char) : Text.dropBack? ['.', 't', 's'] (stem ++ ['.', 't', 's', 'x']) = none := by
  rw [Option.eq_none_iff_forall_ne_some]
  intro r hr
  have hlast := congrArg List.getLast? (Text.dropBack?_eq_some_iff.mp hr)
  simp at hlast

/-- The file of a name without elements is bundled under the name with them. -/
theorem elementSpecifier_localFile_ts (stem : List Char) :
    elementSpecifier (Url.localFile "src" (stem ++ ['.', 't', 's'])).text =
      (Url.localFile "src" (stem ++ ['.', 't', 's', 'x'])).text := by
  have htext := Url.text_localFile "src" (stem ++ ['.', 't', 's'])
  have hdrop : Text.dropBack? ['.', 't', 's'] (Url.localFile "src" (stem ++ ['.', 't', 's'])).text.toList =
      some ("file:///".toList ++ "src".toList ++ '/' :: stem) := by
    rw [Text.dropBack?_eq_some_iff, htext]
    simp
  rw [elementSpecifier, hdrop, ← String.toList_inj, Url.text_localFile]
  simp

/-- The file of any other name is bundled under its own. -/
theorem elementSpecifier_localFile {name : List Char} (h : Text.dropBack? ['.', 't', 's'] name = none) :
    elementSpecifier (Url.localFile "src" name).text = (Url.localFile "src" name).text := by
  have hdrop : Text.dropBack? ['.', 't', 's'] (Url.localFile "src" name).text.toList = none := by
    rw [Option.eq_none_iff_forall_ne_some]
    intro stem hstem
    have hsplit : "file:///src/".toList ++ name = stem ++ ['.', 't', 's'] := by
      rw [← Text.dropBack?_eq_some_iff.mp hstem, Url.text_localFile]
      rfl
    rcases List.append_eq_append_iff.mp hsplit with ⟨rest, -, hname⟩ | ⟨rest, hfront, hback⟩
    · rw [Option.eq_none_iff_forall_ne_some] at h
      exact h rest (Text.dropBack?_eq_some_iff.mpr hname)
    · cases rest with
      | nil =>
        rw [Option.eq_none_iff_forall_ne_some] at h
        exact h [] (Text.dropBack?_eq_some_iff.mpr hback.symm)
      | cons c rest =>
        -- There is no point in what precedes the name.
        have hpoint : '.' ∈ "file:///src/".toList := by
          rw [hfront, ← (List.cons.inj hback).1]
          exact List.mem_append_right _ List.mem_cons_self
        exact absurd hpoint (by decide)
  rw [elementSpecifier, hdrop]

namespace BuildContext

variable {config : BuildConfig} {cache : ModuleCache} {request : BuildRequest} {c : BuildContext}
variable {around : Surroundings} {a : Artifact} {b : BundledScript} {name : List Char} {url : Url} {m : SourceModule}

/-! ## Loading scripts -/

/-- The text that a script is bundled with. -/
def bundledText (c : BuildContext) (b : BundledScript) : Except LoadFault String :=
  (c.scriptText b).map fun code => withPragma code c.config.jsxImportSource

/-- The script that has the name under which another one is bundled. -/
def twin? (c : BuildContext) (b : BundledScript) : Option BundledScript :=
  (Text.dropBack? ['.', 't', 's'] b.prepared.filename.toList).bind fun stem =>
    c.scripts.find? fun other => other.prepared.filename = String.ofList (stem ++ ['.', 't', 's', 'x'])

/-- A module is bundled under its element name. -/
theorem specifier_elementModule (specifier code : String) :
    (c.elementModule specifier code).specifier = elementSpecifier specifier := rfl

/-- The text of a script is that of its module. -/
theorem bundledText_eq {code : String} (h : c.scriptText b = .ok code) :
    c.bundledText b = .ok (c.elementModule b.url.text code).content := by
  rw [bundledText, h]
  rfl

/-- A script is found by its name. -/
theorem find?_script (hnames : (c.scripts.map fun b => b.prepared.filename).Nodup) (hb : b ∈ c.scripts) :
    c.scripts.find? (fun other => other.prepared.filename = b.prepared.filename) = some b := by
  cases hfind : c.scripts.find? fun other => other.prepared.filename = b.prepared.filename with
  | none => exact absurd (List.find?_eq_none.mp hfind b hb) (by simp)
  | some other =>
    have hname : other.prepared.filename = b.prepared.filename := by simpa using List.find?_some hfind
    rw [List.inj_on_of_nodup_map hnames (List.mem_of_find?_eq_some hfind) hb hname]

/-- The module of a URL of the app is that of the script found for its path. -/
theorem loadApp_eq_ok (h : c.loadApp url = .ok m) :
    ∃ b code, c.script? (Namespaces.pathUnder c.namespaces.appRoot url) = some b ∧ b ∈ c.scripts ∧
      c.scriptText b = .ok code ∧ m = c.elementModule b.url.text code := by
  unfold loadApp at h
  cases hscript : c.script? (Namespaces.pathUnder c.namespaces.appRoot url) with
  | none => simp [hscript] at h
  | some b =>
    cases hcode : c.scriptText b with
    | error e => simp [hscript, hcode, Except.map] at h
    | ok code =>
      have hmem : b ∈ c.scripts := by
        rcases Option.or_eq_some_iff.mp hscript with hnamed | ⟨-, hnamed⟩
        · exact List.mem_of_find?_eq_some hnamed
        · obtain ⟨stem, -, hnamed⟩ := Option.bind_eq_some_iff.mp hnamed
          exact List.mem_of_find?_eq_some hnamed
      exact ⟨b, code, rfl, hmem, hcode, by simpa [hscript, hcode, Except.map, eq_comm] using h⟩

/-- A URL of the network. -/
def IsRemote (c : BuildContext) (url : Url) : Prop :=
  c.namespaces.classify url = some .platformRemote ∨ c.namespaces.classify url = some .remote

/-- A module that was not asked for under its specifier comes from the app or from the network. -/
theorem loadApp_or_isRemote (h : c.Brings around url (.source m)) (hother : m.specifier ≠ url.text) :
    c.loadApp url = .ok m ∨ c.IsRemote url := by
  obtain ⟨w, hload⟩ := h
  unfold load at hload
  cases hclass : c.namespaces.classify url with
  | none => simp [hclass] at hload
  | some k =>
    simp only [hclass] at hload
    cases k with
    | external => cases hload
    | app =>
      left
      cases hm : c.loadApp url with
      | error e => simp [hm] at hload
      | ok m' => simpa [hm] using hload
    | framework =>
      cases htext : c.frameworkText around.readFile (Namespaces.pathUnder c.namespaces.frameworkRoot url) with
      | error e => simp [loadFramework, htext, Except.map] at hload
      | ok content =>
        refine absurd ?_ hother
        obtain rfl := (by simpa [loadFramework, htext, Except.map] using hload : _ = m)
        rfl
    | platformRemote => exact Or.inr (Or.inl hclass)
    | remote => exact Or.inr (Or.inr hclass)

section UsualBase

variable (hc : ofRequest config cache request = .ok c) (hbase : request.baseUrl = none)
include hc hbase

/-- A URL below the directory of scripts is one of the app. -/
theorem classify_of_text (htext : url.text = (Url.localFile "src" name).text) :
    c.namespaces.classify url = some .app ∧ Namespaces.pathUnder c.namespaces.appRoot url = String.ofList name := by
  have hroot : c.namespaces.appRoot.text.toList = "file:///src/".toList := by
    rw [(namespaces_of_usualBase hc hbase).1, ← localFile_nil, Url.text_localFile]
    rfl
  have hurl : url.text.toList = "file:///src/".toList ++ name := by
    rw [htext, Url.text_localFile]
    rfl
  constructor
  · have hscheme : ∀ scheme ∈ ["node", "jsr", "data"], url.scheme ≠ scheme := by
      rintro scheme hmem heq
      obtain ⟨rest, hrest⟩ := url.exists_text_eq
      rw [hurl, heq] at hrest
      revert hrest
      simp only [List.mem_cons, List.not_mem_nil, or_false] at hmem
      rcases hmem with rfl | rfl | rfl <;> simp
    have hexternal : ["node", "jsr", "data"].contains url.scheme = false := by
      rw [← Bool.not_eq_true, List.contains_iff_mem]
      exact fun hmem => hscheme _ hmem rfl
    have happ : Namespaces.liesUnder c.namespaces.appRoot url = true := by
      rw [Namespaces.liesUnder, Text.beginsWith, hroot, hurl, List.isPrefixOf_iff_prefix]
      exact List.prefix_append _ _
    simp [Namespaces.classify, Namespaces.tests, happ, -List.contains_eq_mem, hexternal]
  · have hdrop : Text.dropFront? c.namespaces.appRoot.text.toList url.text.toList = some name := by
      rw [Text.dropFront?_eq_some_iff, hroot, hurl]
    rw [Namespaces.pathUnder, hdrop, Option.getD_some]

/-- Loading a URL below the directory of scripts brings the module of a script. -/
theorem brings_of_text {loaded : Loaded} (htext : url.text = (Url.localFile "src" name).text)
    (h : c.Brings around url loaded) : ∃ m, loaded = .source m ∧ c.loadApp url = .ok m := by
  obtain ⟨w, hload⟩ := h
  rw [load, (classify_of_text hc hbase htext).1] at hload
  cases hm : c.loadApp url with
  | error e => simp [hm] at hload
  | ok m => exact ⟨m, by simpa [hm, eq_comm] using hload, rfl⟩

/-- The URL of a script is that of its name. -/
theorem url_of_mem (hb : b ∈ c.scripts) : b.url = Url.localFile "src" b.prepared.filename.toList := by
  obtain ⟨s, -, hs⟩ := exists_script hc hb
  rw [url_of_usualBase hc hbase hs, hs.2, filename_ofCode, FileName.sanitize, String.toList_ofList]

/-- The URL of a script brings the module of this script. -/
theorem brings_script {loaded : Loaded} (hb : b ∈ c.scripts) (htext : url.text = b.url.text)
    (h : c.Brings around url loaded) :
    ∃ code, c.scriptText b = .ok code ∧ loaded = .source (c.elementModule b.url.text code) := by
  have hurl := url_of_mem hc hbase hb
  rw [hurl] at htext
  obtain ⟨m, rfl, hm⟩ := brings_of_text hc hbase htext h
  obtain ⟨other, code, hscript, -, hcode, rfl⟩ := loadApp_eq_ok hm
  have hown : c.script? b.prepared.filename = some b := by
    simp only [script?, find?_script (scripts_bundled hc).2 hb, Option.some_or]
  rw [(classify_of_text hc hbase htext).2, String.ofList_toList, hown] at hscript
  cases hscript
  exact ⟨code, hcode, rfl⟩

/-- A URL with the element name of a script brings the module of its twin, if there is one, or else its own. -/
theorem brings_element {loaded : Loaded} {stem : List Char} (hb : b ∈ c.scripts)
    (hname : b.prepared.filename.toList = stem ++ ['.', 't', 's'])
    (htext : url.text = (Url.localFile "src" (stem ++ ['.', 't', 's', 'x'])).text) (h : c.Brings around url loaded) :
    ∃ code, c.scriptText ((c.twin? b).getD b) = .ok code ∧
      loaded = .source (c.elementModule ((c.twin? b).getD b).url.text code) := by
  obtain ⟨m, rfl, hm⟩ := brings_of_text hc hbase htext h
  obtain ⟨other, code, hscript, -, hcode, rfl⟩ := loadApp_eq_ok hm
  have hstem : Text.dropBack? ['.', 't', 's', 'x'] (stem ++ ['.', 't', 's', 'x']) = some stem :=
    Text.dropBack?_eq_some_iff.mpr rfl
  have hstem' : Text.dropBack? ['.', 't', 's'] (stem ++ ['.', 't', 's']) = some stem :=
    Text.dropBack?_eq_some_iff.mpr rfl
  have hown := find?_script (scripts_bundled hc).2 hb
  have hfile : b.prepared.filename = String.ofList (stem ++ ['.', 't', 's']) := by
    rw [← hname, String.ofList_toList]
  rw [hfile] at hown
  simp only [(classify_of_text hc hbase htext).2, script?, String.toList_ofList, hstem, Option.bind_some, hown]
    at hscript
  have htwin : c.twin? b = c.scripts.find? fun other =>
      other.prepared.filename = String.ofList (stem ++ ['.', 't', 's', 'x']) := by
    rw [twin?, hname, hstem', Option.bind_some]
  rw [← htwin] at hscript
  have hother : other = (c.twin? b).getD b := by
    cases htwin' : c.twin? b with
    | none => simpa [htwin', eq_comm] using hscript
    | some twin => simpa [htwin', eq_comm] using hscript
  rw [← hother]
  exact ⟨code, hcode, rfl⟩

/-- The twin of a script is bundled under the element name of the script. -/
theorem twin?_eq_some {stem : List Char} {twin : BundledScript}
    (hname : b.prepared.filename.toList = stem ++ ['.', 't', 's']) (htwin : c.twin? b = some twin) :
    twin ∈ c.scripts ∧ twin.url = Url.localFile "src" (stem ++ ['.', 't', 's', 'x']) := by
  have hstem : Text.dropBack? ['.', 't', 's'] (stem ++ ['.', 't', 's']) = some stem :=
    Text.dropBack?_eq_some_iff.mpr rfl
  rw [twin?, hname, hstem, Option.bind_some] at htwin
  have hmem := List.mem_of_find?_eq_some htwin
  have hfilename : twin.prepared.filename = String.ofList (stem ++ ['.', 't', 's', 'x']) := by
    simpa using List.find?_some htwin
  exact ⟨hmem, by rw [url_of_mem hc hbase hmem, hfilename, String.toList_ofList]⟩

/-- What is bundled under the element name of a script says so. -/
theorem elementSpecifier_twin {stem : List Char} (hb : b ∈ c.scripts)
    (hname : b.prepared.filename.toList = stem ++ ['.', 't', 's']) :
    elementSpecifier ((c.twin? b).getD b).url.text =
      (Url.localFile "src" (stem ++ ['.', 't', 's', 'x'])).text := by
  cases htwin : c.twin? b with
  | none =>
    rw [Option.getD_none, url_of_mem hc hbase hb, hname]
    exact elementSpecifier_localFile_ts stem
  | some twin =>
    rw [Option.getD_some, (twin?_eq_some hc hbase hname htwin).2]
    exact elementSpecifier_localFile (dropBack?_tsx stem)

/-- A script whose module has the element name of another one is that script or its twin. -/
theorem eq_or_twin_of_elementSpecifier {stem : List Char} {other : BundledScript} (hb : b ∈ c.scripts)
    (hname : b.prepared.filename.toList = stem ++ ['.', 't', 's']) (hother : other ∈ c.scripts)
    (h : elementSpecifier other.url.text = (Url.localFile "src" (stem ++ ['.', 't', 's', 'x'])).text) :
    other = b ∨ c.twin? b = some other := by
  rw [url_of_mem hc hbase hother] at h
  rcases Option.eq_none_or_eq_some (Text.dropBack? ['.', 't', 's'] other.prepared.filename.toList) with hback | ⟨r, hback⟩
  · right
    rw [elementSpecifier_localFile hback] at h
    have hfile : other.prepared.filename = String.ofList (stem ++ ['.', 't', 's', 'x']) := by
      rw [← Url.localFile_text_injective h, String.ofList_toList]
    have hstem : Text.dropBack? ['.', 't', 's'] (stem ++ ['.', 't', 's']) = some stem :=
      Text.dropBack?_eq_some_iff.mpr rfl
    rw [twin?, hname, hstem, Option.bind_some, ← hfile]
    exact find?_script (scripts_bundled hc).2 hother
  · left
    have hr := Text.dropBack?_eq_some_iff.mp hback
    rw [hr, elementSpecifier_localFile_ts] at h
    obtain rfl : r = stem := List.append_cancel_right (Url.localFile_text_injective h)
    refine List.inj_on_of_nodup_map (scripts_bundled hc).2 hother hb ?_
    rw [← String.toList_inj, hr, hname]

/-! ## Records of scripts -/

variable {start final : Resolution} (hended : Resolution.Ended c.roots (c.Brings around) start final)
include hended

/-- The URL of a script is seen from the beginning. -/
theorem script_mem_seen (hb : b ∈ c.scripts) : b.url.text ∈ start.seen := by
  have hroot : b.url.text ∈ c.roots := List.mem_cons_of_mem _ (List.mem_map_of_mem hb)
  obtain ⟨u, hu, hseen⟩ := (Resolution.linked_ofRoots hended.begun).2 _ hroot
  obtain ⟨s, -, hs⟩ := exists_script hc hb
  have hread := Url.parse_localFile isPlainDirectory_src (FileName.isPlainName_sanitized s.filename.toList)
  rw [url_of_usualBase hc hbase hs, hread] at hu
  cases hu
  rw [url_of_usualBase hc hbase hs]
  exact hseen

/-- Nothing claims the URL of a script. -/
theorem not_claimed_script (hb : b ∈ c.scripts) (hm : Resolution.Claimed (c.Brings around) start m) :
    m.specifier ≠ b.url.text := by
  obtain ⟨s, u, hsteps, -, -, -, hnew⟩ := hm
  intro heq
  exact hnew (hsteps.seen_subset (heq ▸ script_mem_seen hc hbase hended hb))

/-- **The record of a script** is its module, or redirects to the name that it is bundled under. -/
theorem record_script (hb : b ∈ c.scripts) :
    ∃ code, c.scriptText b = .ok code ∧
      (elementSpecifier b.url.text = b.url.text ∧ .module (c.elementModule b.url.text code) ∈ final.records ∨
        elementSpecifier b.url.text ≠ b.url.text ∧ elementSpecifier b.url.text ∈ final.seen ∧
          .redirect b.url.text (elementSpecifier b.url.text) ∈ final.records) := by
  have hseen := hended.steps.seen_subset (script_mem_seen hc hbase hended hb)
  obtain ⟨g, hg, hspecifier, horigin⟩ := hended.exists_record hseen
  cases horigin with
  | @external v hv hload =>
    obtain ⟨code, -, hsource⟩ := brings_script hc hbase hb hspecifier hload
    cases hsource
  | @redirect v m hv hload hother hknown =>
    have htext : v.text = b.url.text := hspecifier
    obtain ⟨code, hcode, hsource⟩ := brings_script hc hbase hb htext hload
    obtain rfl := Loaded.source.inj hsource
    rw [htext] at hother hg
    exact ⟨code, hcode, Or.inr ⟨hother, hknown, hg⟩⟩
  | @plain v m urls hv hload hsame hdeps hnamed =>
    have hspecifier : m.specifier = b.url.text := hspecifier
    obtain ⟨code, hcode, hsource⟩ := brings_script hc hbase hb (hsame.symm.trans hspecifier) hload
    obtain rfl := Loaded.source.inj hsource
    exact ⟨code, hcode, Or.inl ⟨hspecifier, hg⟩⟩
  | @claimed m base urls hm hparse hdeps hnamed =>
    exact absurd hspecifier (not_claimed_script hc hbase hended hb hm)

/-- **The record of an element name** is the module of the twin, if there is one, or else that of the script, or
what the network handed over under that name. -/
theorem record_element {stem : List Char} (hb : b ∈ c.scripts)
    (hname : b.prepared.filename.toList = stem ++ ['.', 't', 's'])
    (hseen : (Url.localFile "src" (stem ++ ['.', 't', 's', 'x'])).text ∈ final.seen) :
    ∃ m, .module m ∈ final.records ∧ m.specifier = (Url.localFile "src" (stem ++ ['.', 't', 's', 'x'])).text ∧
      ((∃ code, c.scriptText ((c.twin? b).getD b) = .ok code ∧
          m = c.elementModule ((c.twin? b).getD b).url.text code) ∨
        c.twin? b = none ∧ ∃ url, c.IsRemote url ∧ c.Brings around url (.source m)) := by
  have helement := elementSpecifier_twin hc hbase hb hname
  obtain ⟨g, hg, hspecifier, horigin⟩ := hended.exists_record hseen
  cases horigin with
  | @external v hv hload =>
    obtain ⟨code, -, hsource⟩ := brings_element hc hbase hb hname hspecifier hload
    cases hsource
  | @redirect v m hv hload hother =>
    have htext : v.text = (Url.localFile "src" (stem ++ ['.', 't', 's', 'x'])).text := hspecifier
    obtain ⟨code, -, hsource⟩ := brings_element hc hbase hb hname htext hload
    obtain rfl := Loaded.source.inj hsource
    rw [specifier_elementModule, helement, htext] at hother
    exact absurd rfl hother
  | @plain v m urls hv hload hsame hdeps hnamed =>
    have htext : v.text = (Url.localFile "src" (stem ++ ['.', 't', 's', 'x'])).text := hsame.symm.trans hspecifier
    obtain ⟨code, hcode, hsource⟩ := brings_element hc hbase hb hname htext hload
    obtain rfl := Loaded.source.inj hsource
    refine ⟨_, hg, ?_, Or.inl ⟨code, hcode, rfl⟩⟩
    rw [specifier_elementModule, helement]
  | @claimed m base urls hm hparse hdeps hnamed =>
    refine ⟨m, hg, hspecifier, ?_⟩
    rcases Option.eq_none_or_eq_some (c.twin? b) with htwin | ⟨twin, htwin⟩
    · obtain ⟨s, u, hsteps, hpending, hload, hother, hnew⟩ := hm
      rcases loadApp_or_isRemote hload hother with happ | hremote
      · left
        obtain ⟨other, code, -, hmem, hcode, rfl⟩ := loadApp_eq_ok happ
        rcases eq_or_twin_of_elementSpecifier hc hbase hb hname hmem hspecifier with rfl | htwin'
        · rw [htwin, Option.getD_none]
          exact ⟨code, hcode, rfl⟩
        · rw [htwin] at htwin'
          cases htwin'
      · exact Or.inr ⟨htwin, u, hremote, hload⟩
    · obtain ⟨hmem, hurl⟩ := twin?_eq_some hc hbase hname htwin
      exact absurd (hspecifier.trans (congrArg Url.text hurl).symm) (not_claimed_script hc hbase hended hmem hm)

omit hended

/-- **What is found under the URL of a script.** Whatever the order of loading, it is the text of the twin when
the app has one. Otherwise it is the script's own text, unless the network handed over a module under the name
that the script is bundled under. -/
theorem content_of_script (ha : c.Completes around a) {s : Script} (hs : s ∈ request.app.bundled) :
    ∃ b ∈ c.scripts, c.namespaces.scriptUrl (FileName.sanitize s.filename) = .ok b.url ∧
      b.prepared = PreparedScript.ofCode (FileName.sanitize s.filename) s.code ∧
      ∃ own text, c.bundledText b = .ok own ∧ a.content? b.url.text = some text ∧
        (∀ twin, c.twin? b = some twin → c.bundledText twin = .ok text) ∧
        (c.twin? b = none → text = own ∨ ∃ url m, c.IsRemote url ∧ c.Brings around url (.source m) ∧
          m.specifier = elementSpecifier b.url.text ∧ m.content = text) := by
  obtain ⟨b, hb, hurl, hprepared⟩ := exists_bundledScript hc hs
  refine ⟨b, hb, hurl, hprepared, ?_⟩
  have hsorted := ha.isClosedGraph.sorted
  obtain ⟨start, final, hstart, hsteps, hdone, rfl⟩ := ha
  have hended : Resolution.Ended c.roots (c.Brings around) start final := ⟨hstart, hsteps, hdone⟩
  have hfound : ∀ {g : GraphModule} {t : String}, g ∈ final.records → g.specifier = t →
      (Artifact.ofModules c.roots final.records).module? t = some g := fun hg ht =>
    (Artifact.module?_eq_some_iff hsorted).mpr ⟨Artifact.mem_ofModules.mpr hg, ht⟩
  obtain ⟨code, hcode, ⟨hsame, hmodule⟩ | ⟨hother, hseen, hredirect⟩⟩ := record_script hc hbase hended hb
  · -- The script has its own record, so its name is no name without elements and it has no twin.
    have hback : Text.dropBack? ['.', 't', 's'] b.prepared.filename.toList = none := by
      rw [Option.eq_none_iff_forall_ne_some]
      intro stem hstem
      have hname := Text.dropBack?_eq_some_iff.mp hstem
      rw [url_of_mem hc hbase hb, hname, elementSpecifier_localFile_ts] at hsame
      simpa using Url.localFile_text_injective hsame
    have htwin : c.twin? b = none := by rw [twin?, hback, Option.bind_none]
    refine ⟨_, _, bundledText_eq hcode, ?_, fun twin h => ?_, fun _ => Or.inl rfl⟩
    · rw [Artifact.content?, hfound hmodule hsame]
    · rw [htwin] at h
      cases h
  · obtain ⟨stem, hstem⟩ : ∃ stem, Text.dropBack? ['.', 't', 's'] b.prepared.filename.toList = some stem := by
      rcases Option.eq_none_or_eq_some (Text.dropBack? ['.', 't', 's'] b.prepared.filename.toList) with h | h
      · rw [url_of_mem hc hbase hb, elementSpecifier_localFile h] at hother
        exact absurd rfl hother
      · exact h
    have hname := Text.dropBack?_eq_some_iff.mp hstem
    have helement : elementSpecifier b.url.text = (Url.localFile "src" (stem ++ ['.', 't', 's', 'x'])).text := by
      rw [url_of_mem hc hbase hb, hname, elementSpecifier_localFile_ts]
    rw [helement] at hseen hredirect
    obtain ⟨m, hm, hspecifier, horigin⟩ := record_element hc hbase hended hb hname hseen
    refine ⟨_, m.content, bundledText_eq hcode, ?_, fun twin htwin => ?_, fun htwin => ?_⟩
    · have hfirst : (Artifact.ofModules c.roots final.records).module? b.url.text = some (.redirect b.url.text _) :=
        hfound hredirect rfl
      rw [Artifact.content?, hfirst]
      simp only [hfound hm hspecifier]
    · rcases horigin with ⟨code', hcode', rfl⟩ | ⟨hnone, -⟩
      · rw [htwin, Option.getD_some] at hcode' ⊢
        exact bundledText_eq hcode'
      · rw [htwin] at hnone
        cases hnone
    · rcases horigin with ⟨code', hcode', rfl⟩ | ⟨-, url, hremote, hbrings⟩
      · rw [htwin, Option.getD_none, hcode] at hcode'
        cases hcode'
        exact Or.inl rfl
      · exact Or.inr ⟨url, m, hremote, hbrings, hspecifier.trans helement.symm, rfl⟩

end UsualBase

/-! ## Two scripts of one name -/

/-- The build of an app with two scripts of one name, without and with elements. -/
def twinRequest : BuildRequest where
  app := ⟨"app", "app", none, [⟨"0", "x.ts", "1;", 0, ""⟩, ⟨"1", "x.tsx", "2;", 1, ""⟩]⟩
  target := "deno"
  version := "1"
  baseUrl := none

/-- Settings under which elements need no module of the network. -/
def twinConfig : BuildConfig := { BuildConfig.default with jsxImportSource := "node:r" }

/-- Both scripts are bundled, in the order they stand in. -/
theorem bundled_twinRequest : twinRequest.app.bundled = twinRequest.app.scripts := by
  have hall : twinRequest.app.scripts.filter Script.isBundled = twinRequest.app.scripts := by decide +kernel
  rw [App.bundled, hall]
  exact List.mergeSort_of_pairwise (by decide +kernel)

/-- Whether the first of two scripts has the second one for its twin, each with its own text. -/
def hasTwinAhead (c : BuildContext) : Bool :=
  c.scripts.all fun b => b.prepared.filename ≠ "x.ts" ||
    ((c.bundledText b).toOption == some "/** @jsxImportSource node:r */\n1;" &&
      (c.twin? b).any fun twin => (c.bundledText twin).toOption == some "/** @jsxImportSource node:r */\n2;")

/-- A value that a computation is known to give. -/
theorem eq_ok_of_toOption {ε α : Type} {e : Except ε α} {x : α} (h : e.toOption = some x) : e = .ok x := by
  cases e with
  | error e => cases h
  | ok y => exact congrArg _ (Option.some.inj h)

/-- **One script is replaced by another one**: under the URL of the first of two scripts stands the second. -/
theorem content_of_script_twin :
    ∃ c a, ofRequest twinConfig .default twinRequest = .ok c ∧ c.Completes (onlyEntry "") a ∧
      ∃ b ∈ c.scripts, b.url.text = "file:///src/x.ts" ∧
        c.bundledText b = .ok "/** @jsxImportSource node:r */\n1;" ∧
        a.content? b.url.text = some "/** @jsxImportSource node:r */\n2;" := by
  have hchecked : (match ofRequest twinConfig .default twinRequest with
      | .ok c => (c.resolve (onlyEntry "") .initial).1.toOption.isSome && c.hasTwinAhead
      | .error _ => false) = true := by
    unfold ofRequest
    rw [bundled_twinRequest]
    decide +kernel
  cases hc : ofRequest twinConfig .default twinRequest with
  | error e => simp [hc] at hchecked
  | ok c =>
    simp only [hc, Bool.and_eq_true] at hchecked
    obtain ⟨hsome, hahead⟩ := hchecked
    cases hresult : c.resolve (onlyEntry "") .initial with
    | mk result w' =>
    cases result with
    | error e => simp [hresult, Except.toOption] at hsome
    | ok a =>
      have ha := (canBuild_of_resolve hresult).completes
      have hfirst : (⟨"0", "x.ts", "1;", 0, ""⟩ : Script) ∈ twinRequest.app.bundled := by
        rw [bundled_twinRequest]
        exact List.mem_cons_self
      have hkept : FileName.sanitize "x.ts" = "x.ts" := by decide +kernel
      obtain ⟨b, hb, -, hprepared, own, text, hown, htext, htwin, -⟩ := content_of_script hc rfl ha hfirst
      rw [hkept] at hprepared
      have hname : b.prepared.filename = "x.ts" := by rw [hprepared, filename_ofCode]
      obtain ⟨hfront, hback⟩ : c.bundledText b = .ok "/** @jsxImportSource node:r */\n1;" ∧
          ∃ twin, c.twin? b = some twin ∧ c.bundledText twin = .ok "/** @jsxImportSource node:r */\n2;" := by
        have hb' := List.all_eq_true.mp hahead b hb
        simp only [hname, ne_eq, not_true_eq_false, decide_false, Bool.false_or, Bool.and_eq_true, beq_iff_eq,
          Option.any_eq_true] at hb'
        obtain ⟨hfront, twin, htwin, hback⟩ := hb'
        exact ⟨eq_ok_of_toOption hfront, twin, htwin, eq_ok_of_toOption hback⟩
      obtain ⟨twin, htwin', hback⟩ := hback
      refine ⟨c, a, rfl, ha, b, hb, ?_, hfront, ?_⟩
      · rw [url_of_mem hc rfl hb, hname]
        decide +kernel
      · rw [htext, Except.ok.inj ((htwin twin htwin').symm.trans hback)]

end BuildContext

end AppBundler
