import AppBundler.Proofs.Bundle.Contents
import AppBundler.Proofs.Bundle.Settling
/-!
# Addresses of scripts

With the usual base, the URL of a script is the directory of scripts with the bundled name behind it. The name passes
through the reading of URLs unchanged, the URL is one of the app and of nothing else, and under it the script is found.

The bundled name has none of the characters that URLs encode, but a specifier is read as a URL, which encodes them. The
two meet exactly when the name of the file has no such character: then a specifier that names the file finds its script,
and otherwise it finds none.
-/

namespace AppBundler

/-! ## Names -/

namespace FileName

/-- What holds of the name that a file is bundled under. -/
structure IsNameOf (filename name : String) : Prop where
  /-- It is made of ASCII letters, digits, points, underscores, hyphens and slashes. -/
  kept : ∀ c ∈ name.toList, c.isAlphanum = true ∨ c ∈ ['.', '_', '-', '/']
  /-- No segment is one of points, and none is empty unless the whole name is. -/
  named : ∀ segment ∈ name.toList.splitOn '/', segment ≠ ['.'] ∧ segment ≠ ['.', '.'] ∧ (segment = [] → name = "")
  /-- It is bundled under itself. -/
  again : sanitize name = name
  /-- It ends as a source file when the file does. -/
  ending : ∀ ending ∈ [".ts".toList, ".tsx".toList],
    Text.endsWith ending filename.toList = true → Text.endsWith ending name.toList = true

/-- **Bundled names** are made of kept characters and named segments, and keep the endings of source files. -/
theorem isNameOf_sanitize (filename : String) : IsNameOf filename (sanitize filename) := by
  have hplain : IsPlainName (sanitized filename.toList) := isPlainName_sanitized _
  have hlist : (sanitize filename).toList = sanitized filename.toList := String.toList_ofList
  refine ⟨fun c hc => ?_, fun segment hsegment => ?_, ?_, fun ending hending hends => ?_⟩
  · have hkept := hplain.kept c (hlist ▸ hc)
    simpa [isKept, or_assoc] using hkept
  · rw [hlist] at hsegment
    obtain ⟨hone, htwo⟩ := hplain.noDots segment hsegment
    refine ⟨hone, htwo, fun hempty => ?_⟩
    by_cases hsegments : segments filename.toList = []
    · rw [sanitize, sanitized, ← segments, hsegments]
      rfl
    · rw [splitOn_sanitized hsegments] at hsegment
      exact absurd hempty (of_mem_segments hsegment).2.2.1
  · rw [sanitize, hlist, sanitized_sanitized, ← sanitize]
  · have hfit : ending.all isKept = true ∧ '/' ∉ ending ∧ 2 < ending.length := by
      rcases List.mem_pair.mp hending with rfl | rfl <;> decide
    obtain ⟨stem, hstem⟩ := List.isSuffixOf_iff_suffix.mp hends
    obtain ⟨front, hfront⟩ := exists_sanitized_append (List.all_eq_true.mp hfit.1) hfit.2.1 hfit.2.2 stem
    rw [hlist, ← hstem, hfront]
    exact List.isSuffixOf_iff_suffix.mpr (List.suffix_append _ _)

end FileName

/-! ## URLs -/

/-- A URL is the address of a name: the URL of a script of that name is read as the root of the app with the name behind
it, and it passes the test for scripts of the app and no other one. -/
structure Namespaces.IsAddress (n : Namespaces) (name : String) (url : Url) : Prop where
  url_eq : n.scriptUrl name = .ok url
  text_eq : url.text = n.appRoot.text ++ name
  passes : (n.tests url).filter (·.2) = [(.app, true)]

namespace BuildContext

section UsualBase

variable {config : BuildConfig} {cache : ModuleCache} {request : BuildRequest} {c : BuildContext}
  (hc : ofRequest config cache request = .ok c) (hbase : request.baseUrl = none)
include hc hbase

/-- Every bundled name has an address. -/
theorem isAddress_localFile (filename : String) : c.namespaces.IsAddress (FileName.sanitize filename)
    (Url.localFile "src" (FileName.sanitized filename.toList)) := by
  obtain ⟨happ, hframework⟩ := namespaces_of_usualBase hc hbase
  have hroot (directory : String) : (localDirectory directory).text.toList =
      "file:///".toList ++ directory.toList ++ ['/'] := by
    rw [← localFile_nil, Url.text_localFile]
  have htext := Url.text_localFile "src" (FileName.sanitized filename.toList)
  refine ⟨?_, ?_, ?_⟩
  · rw [Namespaces.scriptUrl, happ, FileName.sanitize,
      Url.join_localDirectory isPlainDirectory_src (FileName.isPlainName_sanitized _)]
    rfl
  · rw [← String.toList_inj, htext, happ, String.toList_append, hroot, FileName.sanitize, String.toList_ofList]
    simp
  · have hunder : Namespaces.liesUnder c.namespaces.appRoot
        (Url.localFile "src" (FileName.sanitized filename.toList)) = true := by
      rw [Namespaces.liesUnder, Text.beginsWith, happ, hroot, htext, List.isPrefixOf_iff_prefix]
      exact ⟨FileName.sanitized filename.toList, by simp⟩
    have hother : Namespaces.liesUnder c.namespaces.frameworkRoot
        (Url.localFile "src" (FileName.sanitized filename.toList)) = false := by
      rw [Namespaces.liesUnder, Text.beginsWith, hframework, hroot, htext]
      rfl
    simp only [Namespaces.tests, hunder, hother]
    rfl

/-- **Addresses of scripts** with the usual base. Every name that bundling makes has one, which is the root of the app
and the name, and is one of the app alone; different names have different addresses; and under the address of a script
that was bundled, that script is found and loaded. -/
theorem addresses_of_usualBase :
    (∀ filename, FileName.IsNameOf filename (FileName.sanitize filename) ∧
      ∃ url, c.namespaces.IsAddress (FileName.sanitize filename) url) ∧
    (∀ filename other url url', c.namespaces.scriptUrl (FileName.sanitize filename) = .ok url →
      c.namespaces.scriptUrl (FileName.sanitize other) = .ok url' → url.text = url'.text →
      FileName.sanitize filename = FileName.sanitize other) ∧
    ∀ s ∈ request.app.bundled, ∃ b ∈ c.scripts,
      c.namespaces.IsAddress (FileName.sanitize s.filename) b.url ∧
      b.prepared = PreparedScript.ofCode (FileName.sanitize s.filename) s.code ∧
      c.script? (Namespaces.pathUnder c.namespaces.appRoot b.url) = some b ∧
      c.loadApp b.url = (c.scriptText b).map fun text => c.elementModule b.url.text text := by
  refine ⟨fun filename => ⟨FileName.isNameOf_sanitize filename, _, isAddress_localFile hc hbase filename⟩, ?_, ?_⟩
  · intro filename other url url' h h' htext
    obtain rfl := Except.ok.inj ((isAddress_localFile hc hbase filename).url_eq.symm.trans h)
    obtain rfl := Except.ok.inj ((isAddress_localFile hc hbase other).url_eq.symm.trans h')
    rw [FileName.sanitize, FileName.sanitize, Url.localFile_text_injective htext]
  · intro s hs
    obtain ⟨b, hb, hbundled⟩ := exists_bundledScript hc hs
    have haddress : c.namespaces.IsAddress (FileName.sanitize s.filename) b.url := by
      rw [url_of_usualBase hc hbase hbundled]
      exact isAddress_localFile hc hbase s.filename
    have hfound : c.script? (Namespaces.pathUnder c.namespaces.appRoot b.url) = some b := by
      have hpath := (classify_of_text hc hbase (congrArg Url.text (url_of_mem hc hbase hb))).2
      rw [hpath, String.ofList_toList]
      simp only [script?, find?_script (scripts_bundled hc).2 hb, Option.some_or]
    refine ⟨b, hb, haddress, hbundled.2, hfound, ?_⟩
    simp only [loadApp, hfound]

end UsualBase

/-! ## A name with a blank -/

/-- The build of an app with a script whose name has a blank, which the other script imports. -/
def spacedRequest : BuildRequest where
  app := ⟨"app", "app", none,
    [⟨"0", "main.ts", "import \"./my file.ts\";\n", 0, ""⟩, ⟨"1", "my file.ts", "export const x = 1;\n", 1, ""⟩]⟩
  target := "deno"
  version := "1"
  baseUrl := none

/-- Both scripts are bundled, in the order they stand in. -/
theorem bundled_spacedRequest : spacedRequest.app.bundled = spacedRequest.app.scripts := by
  have hall : spacedRequest.app.scripts.filter Script.isBundled = spacedRequest.app.scripts := by decide +kernel
  rw [App.bundled, hall]
  exact List.mergeSort_of_pairwise (by decide +kernel)

/-- The build can be set up. -/
theorem exists_ofRequest_spacedRequest : ∃ c, ofRequest .default .default spacedRequest = .ok c := by
  have hbuilt : (ofRequest .default .default spacedRequest).toOption.isSome = true := by
    unfold ofRequest
    rw [bundled_spacedRequest]
    decide +kernel
  cases hc : ofRequest .default .default spacedRequest with
  | error e =>
    rw [hc] at hbuilt
    cases hbuilt
  | ok c => exact ⟨c, rfl⟩

/-- The script is found under a name without the blank. -/
theorem addresses_of_usualBase_spaced : ∃ c, ofRequest .default .default spacedRequest = .ok c ∧
    spacedRequest.baseUrl = none ∧
    ∃ b ∈ c.scripts, b.url.text = "file:///src/myfile.ts" ∧ b.prepared.code = "export const x = 1;\n" ∧
      c.script? (Namespaces.pathUnder c.namespaces.appRoot b.url) = some b := by
  obtain ⟨c, hc⟩ := exists_ofRequest_spacedRequest
  have hmem : (⟨"1", "my file.ts", "export const x = 1;\n", 1, ""⟩ : Script) ∈ spacedRequest.app.bundled := by
    rw [bundled_spacedRequest]
    exact List.mem_of_getLast? rfl
  obtain ⟨-, -, hscripts⟩ := addresses_of_usualBase hc rfl
  obtain ⟨b, hb, -, hprepared, hfound, -⟩ := hscripts _ hmem
  have hname : b.prepared.filename = "myfile.ts" := by
    rw [hprepared, filename_ofCode]
    decide +kernel
  refine ⟨c, hc, rfl, b, hb, ?_, ?_, hfound⟩
  · rw [url_of_mem hc rfl hb, hname]
    decide +kernel
  · rw [hprepared, code_ofCode]

end BuildContext

/-! ## Names that are shown -/

namespace FileName

variable {s : List Char}

/-- A name that loses nothing when it is bundled but the breaks that a URL loses as well. -/
def IsShown (s : List Char) : Prop := ∀ c ∈ s, isKept c = true ∨ Url.isBreak c = true

instance : DecidablePred IsShown := fun s => List.decidableBAll _ s

/-- The name of a file in no directory is bundled as what is kept of it, if that is a name. -/
theorem sanitized_of_not_mem (hslash : '/' ∉ s) :
    sanitized s = if isNamed (s.filter isKept) then s.filter isKept else [] := by
  have hsplit : (s.filter isKept).splitOn '/' = [s.filter isKept] :=
    List.splitOn_eq_singleton fun hmem => hslash (List.mem_filter.mp hmem).1
  rw [sanitized, Text.splitAtChar_eq_splitOn, hsplit]
  split
  · rename_i hnamed
    rw [List.filter_cons_of_pos hnamed, List.filter_nil, List.intercalate_singleton]
  · rename_i hnamed
    rw [List.filter_cons_of_neg hnamed, List.filter_nil]
    rfl

/-- The name of a file in no directory is bundled in none. -/
theorem not_mem_sanitized (hslash : '/' ∉ s) : '/' ∉ sanitized s := by
  rw [sanitized_of_not_mem hslash]
  split
  · exact fun hmem => hslash (List.mem_filter.mp hmem).1
  · exact List.not_mem_nil

/-- What is shown is written into a path without its breaks. -/
theorem pathText_of_isShown (h : IsShown s) : Url.pathText s = s.filter isKept := by
  induction s with
  | nil => rfl
  | cons c s ih =>
    obtain ⟨hc, hs⟩ := List.forall_mem_cons.mp h
    rw [← List.singleton_append, Url.pathText_append, ih hs, List.filter_append]
    congr 1
    by_cases hkept : isKept c = true
    · have hbreak : Url.isBreak c = false := by
        rw [← Bool.not_eq_true]
        intro hbreak
        simp only [Url.isBreak, Bool.or_eq_true, decide_eq_true_eq] at hbreak
        rcases hbreak with (rfl | rfl) | rfl <;> exact absurd hkept (by decide)
      simp [Url.pathText, Url.withoutBreaks, hbreak, hkept, Url.encodeChar_of_isKept hkept]
    · have hbreak : Url.isBreak c = true := hc.resolve_left hkept
      simp [Url.pathText, Url.withoutBreaks, hbreak, hkept]

/-- **What is shown is written as it is bundled.** -/
theorem sanitized_of_isShown (hfile : Url.IsFileText s) (h : IsShown s) : sanitized s = Url.pathText s := by
  have hslash : '/' ∉ s := fun hmem => hfile.inner '/' hmem List.mem_cons_self
  have hnamed : isNamed (Url.pathText s) = true := by
    obtain ⟨stem, last, hends, -, hlast⟩ := hfile.pathText.ends
    have hpoint : last ≠ '.' := fun heq => hlast (heq ▸ List.mem_cons_self)
    have hne (t : List Char) (ht : t.getLast? ≠ some last) : stem ++ [last] ≠ t := fun heq =>
      ht (heq ▸ List.getLast?_concat)
    have hdots : (some '.' : Option Char) ≠ some last := fun heq => hpoint (Option.some.inj heq).symm
    rw [hends, isNamed, decide_eq_true (hne [] (Option.some_ne_none last).symm), decide_eq_true (hne ['.'] hdots),
      decide_eq_true (hne ['.', '.'] hdots)]
    rfl
  rw [sanitized_of_not_mem hslash, ← pathText_of_isShown h, if_pos hnamed]

/-- What is not shown is written with a character that no bundled name has. -/
theorem exists_mem_pathText (h : ¬IsShown s) : ∃ d ∈ Url.pathText s, isKept d = false := by
  obtain ⟨c, hc, hnot⟩ : ∃ c ∈ s, ¬(isKept c = true ∨ Url.isBreak c = true) := by
    simpa only [IsShown, not_forall, exists_prop] using h
  obtain ⟨hkept, hbreak⟩ := not_or.mp hnot
  have hmem : c ∈ Url.withoutBreaks s := List.mem_filter.mpr ⟨hc, by simp [hbreak]⟩
  have hwritten {d : Char} (hd : d ∈ Url.encodeChar Url.pathSet c) : d ∈ Url.pathText s :=
    List.mem_flatMap.mpr ⟨c, hmem, hd⟩
  unfold Url.encodeChar at hwritten
  split at hwritten
  · exact ⟨'%', hwritten (Url.percent_mem_percentChar c), by decide⟩
  · exact ⟨c, hwritten (List.mem_singleton_self c), by simpa using hkept⟩

end FileName

/-! ## Specifiers of files in the same directory -/

/-- A bundled script in no directory has a name that is one of a file. -/
theorem Script.isFileText {app : App} {s : Script} (h : s ∈ app.bundled)
    (hinner : ∀ c ∈ s.filename.toList, c ∉ ['/', '\\', '?', '#']) : Url.IsFileText s.filename.toList := by
  have hends : ∃ stem, ∃ last ∈ ['s', 'x'], s.filename.toList = stem ++ [last] := by
    have hbundled : s.isBundled = true := (List.mem_filter.mp (List.mem_mergeSort.mp h)).2
    rcases Bool.or_eq_true_iff.mp hbundled with h | h
    · obtain ⟨stem, hstem⟩ := List.isSuffixOf_iff_suffix.mp h
      exact ⟨stem ++ ['.', 't'], 's', by decide, by rw [← hstem, List.append_assoc]; rfl⟩
    · obtain ⟨stem, hstem⟩ := List.isSuffixOf_iff_suffix.mp h
      exact ⟨stem ++ ['.', 't', 's'], 'x', by decide, by rw [← hstem, List.append_assoc]; rfl⟩
  obtain ⟨stem, last, hlast, hstem⟩ := hends
  refine ⟨hinner, stem, last, hstem, ?_⟩
  rcases List.mem_pair.mp hlast with rfl | rfl
  · exact ⟨⟨by decide, by decide, by decide⟩, by decide⟩
  · exact ⟨⟨by decide, by decide, by decide⟩, by decide⟩

/-- What precedes a colon behind a point and a slash is no scheme. -/
theorem Specifier.hasScheme_point (t : List Char) : hasScheme ('.' :: '/' :: t) = false := by
  unfold hasScheme
  split
  · rename_i scheme rest hsplit
    have hs := (Text.splitOnce?_eq_some_iff.mp hsplit).1
    match scheme with
    | [] => exact absurd (List.cons.inj hs).1 (by decide)
    | [_] => exact absurd (List.cons.inj (List.cons.inj hs).2).1 (by decide)
    | first :: second :: _ =>
      obtain rfl := (List.cons.inj (List.cons.inj hs).2).1
      have hslash : isSchemeChar '/' = false := by decide
      simp [hslash]
  · rfl

/-- The final form of a specifier of a file in the same directory is the URL that it stands for. -/
theorem ModuleHosts.settle?_point (h : ModuleHosts) {referrer url : Url} {name : String}
    (hjoin : referrer.join ("./" ++ name) = .ok url) : h.settle? ("./" ++ name) referrer = some url.text := by
  have hlist : ("./" ++ name).toList = '.' :: '/' :: name.toList := by simp
  have hpackage : Text.dropFront? ['n', 'p', 'm', ':'] ('.' :: '/' :: name.toList) = none := rfl
  have hrelative : Specifier.isRelative ('.' :: '/' :: name.toList) = true := rfl
  rw [settle?, hlist, hpackage, Specifier.hasScheme_point, hrelative, hjoin]
  rfl

namespace BuildContext

/-- What holds of the URL that a script reads the name of another one as. -/
structure Reaches (c : BuildContext) (s t : Script) (a b : BundledScript) (u : Url) : Prop where
  /-- The two are bundled. -/
  importer : a ∈ c.scripts ∧ IsBundledAs c.namespaces s a
  imported : b ∈ c.scripts ∧ IsBundledAs c.namespaces t b
  /-- The specifier is given the text of the URL, which stands for the URL everywhere. -/
  settled : c.hosts.settle? ("./" ++ t.filename) a.url = some u.text
  resolved : ∀ base, Specifier.resolve u.text base = .ok u
  /-- The URL is one of the app. -/
  isApp : c.namespaces.classify u = some .app

section UsualBase

variable {config : BuildConfig} {cache : ModuleCache} {request : BuildRequest} {c : BuildContext}
  (hc : ofRequest config cache request = .ok c)

include hc in
/-- No script has a name with a character that is not kept. -/
theorem script?_of_not_kept {path : List Char} {d : Char} (hd : d ∈ path) (hkept : FileName.isKept d = false) :
    c.script? (String.ofList path) = none := by
  have hnames : ∀ name : List Char, d ∈ name →
      (c.scripts.find? fun b => b.prepared.filename = String.ofList name) = none := by
    refine fun name hname => List.find?_eq_none.mpr fun b hb => ?_
    obtain ⟨s, -, hs⟩ := exists_script hc hb
    rw [hs.2, filename_ofCode, decide_eq_true_eq]
    intro heq
    have hplain := (FileName.isPlainName_sanitized s.filename.toList).kept
    rw [← String.toList_ofList (l := FileName.sanitized _), ← FileName.sanitize, heq, String.toList_ofList] at hplain
    exact absurd (hplain d hname) (by simp [hkept])
  rw [script?]
  dsimp only
  rw [hnames path hd, Option.none_or, Option.bind_eq_none_iff]
  intro stem hstem
  rw [String.toList_ofList, Text.dropBack?_eq_some_iff] at hstem
  refine hnames _ (List.mem_append_left _ ?_)
  -- the ending is kept, so what is not stands before it
  rw [hstem] at hd
  refine (List.mem_append.mp hd).resolve_right fun hending => ?_
  have hall : (['.', 't', 's', 'x'].all FileName.isKept) = true := by decide
  exact absurd (List.all_eq_true.mp hall d hending) (by simp [hkept])

variable (hbase : request.baseUrl = none)
include hc hbase

variable {s t : Script} (ht : t ∈ request.app.bundled)
  (hinner : ∀ d ∈ t.filename.toList, d ∉ ['/', '\\', '?', '#'])
include ht hinner

/-- A script in no directory reads the name of another one as a URL of the app. -/
theorem exists_reaches (hs : s ∈ request.app.bundled) (htop : '/' ∉ s.filename.toList) :
    ∃ a b, Reaches c s t a b (Url.localFile "src" (Url.pathText t.filename.toList)) := by
  have hfile := Script.isFileText ht hinner
  obtain ⟨a, ha, hof⟩ := exists_bundledScript hc hs
  obtain ⟨b, hb, hof'⟩ := exists_bundledScript hc ht
  have hjoin : a.url.join ("./" ++ t.filename) = .ok (Url.localFile "src" (Url.pathText t.filename.toList)) := by
    have hname : "./" ++ t.filename = String.ofList ('.' :: '/' :: t.filename.toList) := by
      simp [← String.toList_inj]
    have hkept := (FileName.isPlainName_sanitized s.filename.toList).kept
    have hcolon : ':' ∉ FileName.sanitized s.filename.toList := fun hmem => absurd (hkept ':' hmem) (by decide)
    rw [url_of_usualBase hc hbase hof, hname]
    exact hfile.join_localFile (FileName.not_mem_sanitized htop) hcolon
  have hscheme : Specifier.HasOwnScheme (Url.localFile "src" (Url.pathText t.filename.toList)).text.toList :=
    ⟨"file".toList, _, Url.text_localFile _ _, by decide, by decide⟩
  refine ⟨a, b, ⟨ha, hof⟩, ⟨hb, hof'⟩, ModuleHosts.settle?_point _ hjoin, fun base => ?_, ?_⟩
  · rw [Specifier.resolve_of_hasOwnScheme hscheme, hfile.parse_localFile]
    rfl
  · exact (classify_of_text hc hbase rfl).1

/-- A name that is shown finds its script. -/
theorem loadApp_of_isShown {b : BundledScript} (hb : b ∈ c.scripts) (hof : IsBundledAs c.namespaces t b)
    (hshown : FileName.IsShown t.filename.toList) :
    c.loadApp (Url.localFile "src" (Url.pathText t.filename.toList)) =
      (c.scriptText b).map fun text => c.elementModule b.url.text text := by
  have hname : String.ofList (Url.pathText t.filename.toList) = b.prepared.filename := by
    rw [hof.2, filename_ofCode, FileName.sanitize,
      FileName.sanitized_of_isShown (Script.isFileText ht hinner) hshown]
  have hfound : c.script? b.prepared.filename = some b := by
    simp only [script?, find?_script (scripts_bundled hc).2 hb, Option.some_or]
  simp only [loadApp, (classify_of_text hc hbase rfl).2, hname, hfound]

omit ht hinner in
/-- A name that is not shown finds none. -/
theorem loadApp_of_not_isShown (hnot : ¬FileName.IsShown t.filename.toList) :
    c.loadApp (Url.localFile "src" (Url.pathText t.filename.toList)) = .error (.file .notFound) := by
  obtain ⟨d, hd, hkept⟩ := FileName.exists_mem_pathText hnot
  simp only [loadApp, (classify_of_text hc hbase rfl).2, script?_of_not_kept hc hd hkept]

/-- **A script is found under the name of its file** by the scripts in no directory, with the usual base, exactly when
the name of the file is shown. The specifier always stands for a URL of the app; otherwise no file is found there. -/
theorem siblings_found_iff (hs : s ∈ request.app.bundled) (htop : '/' ∉ s.filename.toList) :
    ∃ a b u, Reaches c s t a b u ∧
      (FileName.IsShown t.filename.toList →
        c.loadApp u = (c.scriptText b).map fun text => c.elementModule b.url.text text) ∧
      (¬FileName.IsShown t.filename.toList → c.loadApp u = .error (.file .notFound)) := by
  obtain ⟨a, b, hreaches⟩ := exists_reaches hc hbase ht hinner hs htop
  exact ⟨a, b, _, hreaches, loadApp_of_isShown hc hbase ht hinner hreaches.imported.1 hreaches.imported.2,
    loadApp_of_not_isShown hc hbase⟩

end UsualBase

/-! ## A name with a blank -/

/-- The script whose name has no blank is found by the other one. -/
theorem siblings_found_iff_shown :
    ∃ c, ofRequest .default .default spacedRequest = .ok c ∧ spacedRequest.baseUrl = none ∧
      ∃ s t a b u, s.filename = "my file.ts" ∧ t.filename = "main.ts" ∧ Reaches c s t a b u ∧
        c.loadApp u = (c.scriptText b).map fun text => c.elementModule b.url.text text := by
  obtain ⟨c, hc⟩ := exists_ofRequest_spacedRequest
  have hs : spacedRequest.app.scripts[1] ∈ spacedRequest.app.bundled := by
    rw [bundled_spacedRequest]
    exact List.getElem_mem _
  have ht : spacedRequest.app.scripts[0] ∈ spacedRequest.app.bundled := by
    rw [bundled_spacedRequest]
    exact List.getElem_mem _
  have hinner : ∀ d ∈ "main.ts".toList, d ∉ ['/', '\\', '?', '#'] := by simp
  obtain ⟨a, b, u, hreaches, hfound, -⟩ := siblings_found_iff hc rfl ht hinner hs (by decide)
  exact ⟨c, hc, rfl, _, _, a, b, u, rfl, rfl, hreaches, hfound (by decide)⟩

/-- The script whose name has a blank is imported by the other one, and can be bundled, but is not found: the specifier
stands for a URL with an encoded blank. -/
theorem blank_not_found :
    ∃ c, ofRequest .default .default spacedRequest = .ok c ∧
      ∃ s t a b u, Reaches c s t a b u ∧ t.filename = "my file.ts" ∧
        Import.scan a.prepared.code = .ok [⟨"./my file.ts", 8, 20, .static⟩] ∧
        c.scriptText b = .ok "export const x = 1;\n" ∧
        u.text = "file:///src/my%20file.ts" ∧ c.loadApp u = .error (.file .notFound) := by
  obtain ⟨c, hc⟩ := exists_ofRequest_spacedRequest
  have hs : spacedRequest.app.scripts[0] ∈ spacedRequest.app.bundled := by
    rw [bundled_spacedRequest]
    exact List.getElem_mem _
  have ht : spacedRequest.app.scripts[1] ∈ spacedRequest.app.bundled := by
    rw [bundled_spacedRequest]
    exact List.getElem_mem _
  have hinner : ∀ d ∈ "my file.ts".toList, d ∉ ['/', '\\', '?', '#'] := by simp
  obtain ⟨a, b, hreaches⟩ := exists_reaches hc rfl ht hinner hs (by decide)
  have hcode : a.prepared.code = "import \"./my file.ts\";\n" := by
    rw [hreaches.importer.2.2, code_ofCode]
    rfl
  refine ⟨c, hc, _, _, a, b, _, hreaches, rfl, ?_, ?_, ?_, loadApp_of_not_isShown hc rfl (by decide)⟩
  · rw [hcode]
    rfl
  · have hprepared : b.prepared = PreparedScript.ofCode "myfile.ts" "export const x = 1;\n" := by
      rw [hreaches.imported.2.2]
      rfl
    have hsettled : c.hosts.settleSource "export const x = 1;\n" b.url = .ok "export const x = 1;\n" := rfl
    have hcode : b.prepared.code = "export const x = 1;\n" := by rw [hprepared, code_ofCode]
    have hfooter : b.prepared.footer = "" := by
      rw [hprepared]
      decide +kernel
    have hdirective : hasClientDirective "export const x = 1;\n" = false := by decide +kernel
    rw [scriptText, hcode, hsettled, hfooter, hdirective]
    rfl
  · decide +kernel

end BuildContext

end AppBundler
