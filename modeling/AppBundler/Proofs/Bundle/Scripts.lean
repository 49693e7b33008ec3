import Mathlib.Data.List.Forall2
import AppBundler.Bundle.Context
import AppBundler.Proofs.Url.PlainNames
/-!
# The scripts of a build

The name under which a file is bundled is made of kept characters and named segments only, so it stands in URLs as
it is, and bundling it again changes nothing. It ends as the name of the file does.

Setting up a build gives every bundled script its name and its URL. The names differ, and with the usual base
the URLs are those of local files that are read back from their texts.
-/

namespace AppBundler

namespace FileName

/-! ## Bundled names -/

/-- The segments of a bundled name. -/
def segments (filename : List Char) : List (List Char) :=
  (Text.splitAtChar '/' (filename.filter isKept)).filter isNamed

/-- A segment is made of kept characters, has no slash, and is named. -/
theorem of_mem_segments {filename segment : List Char} (h : segment ∈ segments filename) :
    (∀ c ∈ segment, isKept c = true) ∧ '/' ∉ segment ∧ segment ≠ [] ∧ segment ≠ ['.'] ∧ segment ≠ ['.', '.'] := by
  obtain ⟨hsplit, hnamed⟩ := List.mem_filter.mp h
  rw [Text.splitAtChar_eq_splitOn] at hsplit
  obtain ⟨hslash, hsub⟩ := Text.of_mem_splitOn hsplit
  exact ⟨fun c hc => (List.mem_filter.mp (hsub hc)).2, hslash, by simpa [isNamed, and_assoc] using hnamed⟩

/-- The pieces of a bundled name are its segments, if there are any. -/
theorem splitOn_sanitized {filename : List Char} (h : segments filename ≠ []) :
    (sanitized filename).splitOn '/' = segments filename :=
  List.splitOn_intercalate '/' (fun _ hl => (of_mem_segments hl).2.1) h

/-- **Bundled names are plain.** -/
theorem isPlainName_sanitized (filename : List Char) : IsPlainName (sanitized filename) := by
  cases hsegments : segments filename with
  | nil =>
    have hempty : sanitized filename = [] := by
      rw [sanitized, ← segments, hsegments]
      rfl
    rw [hempty]
    exact ⟨by simp, by simp, by simp [HasNoDots]⟩
  | cons first rest =>
    have hof := fun segment (h : segment ∈ segments filename) => of_mem_segments h
    have hne : segments filename ≠ [] := by simp [hsegments]
    have hsplit := splitOn_sanitized hne
    refine ⟨fun c hc => ?_, ?_, fun segment h => ?_⟩
    · rcases Text.mem_intercalate hc with rfl | ⟨segment, hsegment, hc⟩
      · decide
      · exact (hof segment hsegment).1 c hc
    · -- The first segment is not empty and has no slash.
      obtain ⟨-, hslash, hne, -⟩ := hof first (by simp [hsegments])
      obtain ⟨c, r, rfl⟩ := List.exists_cons_of_ne_nil hne
      have hhead : (sanitized filename).head? = some c := by
        rw [sanitized, ← segments, hsegments]
        cases rest with
        | nil => simp
        | cons second rest => simp [List.intercalate_cons_cons]
      rw [hhead]
      rintro ⟨⟩
      exact hslash List.mem_cons_self
    · rw [hsplit] at h
      exact (hof segment h).2.2.2

/-- **Bundling a bundled name again changes nothing.** -/
theorem sanitized_sanitized (filename : List Char) : sanitized (sanitized filename) = sanitized filename := by
  have hkept : (sanitized filename).filter isKept = sanitized filename :=
    List.filter_eq_self.mpr (isPlainName_sanitized filename).kept
  by_cases hsegments : segments filename = []
  · have hempty : sanitized filename = [] := by
      rw [sanitized, ← segments, hsegments]
      rfl
    rw [hempty]
    rfl
  · have hnamed : (segments filename).filter isNamed = segments filename :=
      List.filter_eq_self.mpr fun _ h => (List.mem_filter.mp h).2
    have hagain : segments (sanitized filename) = segments filename := by
      rw [segments, hkept, Text.splitAtChar_eq_splitOn, splitOn_sanitized hsegments, hnamed]
    rw [sanitized, ← segments, hagain]
    rfl

/-! ## Endings of names -/

/-- **An ending that is kept ends the bundled name**, when it is too long to be one of points. -/
theorem exists_sanitized_append {ending : List Char} (hkept : ∀ c ∈ ending, isKept c = true) (hslash : '/' ∉ ending)
    (hlong : 2 < ending.length) (s : List Char) : ∃ front, sanitized (s ++ ending) = front ++ ending := by
  have hfilter : (s ++ ending).filter isKept = s.filter isKept ++ ending := by
    rw [List.filter_append, List.filter_eq_self.mpr hkept]
  obtain ⟨before, last, hsplit⟩ := Text.exists_splitOn_append hslash (s.filter isKept)
  have hnamed : isNamed (last ++ ending) = true := by
    have hne {t : List Char} (ht : t.length ≤ 2) : last ++ ending ≠ t := by
      rintro rfl
      rw [List.length_append] at ht
      omega
    rw [isNamed, decide_eq_true (hne (by decide)), decide_eq_true (hne (by decide)), decide_eq_true (hne (by decide))]
    rfl
  rw [sanitized, hfilter, Text.splitAtChar_eq_splitOn, hsplit, List.filter_append,
    List.filter_cons_of_pos hnamed, List.filter_nil]
  obtain ⟨front, hfront⟩ := Text.exists_intercalate_append ['/'] (last ++ ending) (before.filter isNamed)
  exact ⟨front ++ last, by rw [hfront, List.append_assoc]⟩

end FileName

namespace BuildContext

/-! ## Bundled scripts -/

variable {config : BuildConfig} {cache : ModuleCache} {request : BuildRequest} {c : BuildContext}

/-- What bundling makes of a script: its URL and its prepared source. -/
def IsBundledAs (n : Namespaces) (s : Script) (b : BundledScript) : Prop :=
  n.scriptUrl (FileName.sanitize s.filename) = .ok b.url ∧
    b.prepared = PreparedScript.ofCode (FileName.sanitize s.filename) s.code

/-- The scripts are bundled one by one, under names that were not given before. -/
theorem addScripts_eq_ok {n : Namespaces} {scripts : List Script} {named : List (String × String)}
    {done result : List BundledScript} (h : addScripts n named done scripts = .ok result) :
    ∃ new, result = done ++ new ∧ List.Forall₂ (IsBundledAs n) scripts new ∧
      (scripts.map fun s => FileName.sanitize s.filename).Nodup ∧
      ∀ s ∈ scripts, FileName.sanitize s.filename ∉ named.map Prod.fst := by
  induction scripts generalizing named done with
  | nil =>
    obtain rfl : done = result := by simpa [addScripts] using h
    exact ⟨[], by simp⟩
  | cons s r ih =>
    rw [addScripts] at h
    cases hfound : named.find? fun given => given.1 = FileName.sanitize s.filename with
    | some given => simp [hfound] at h
    | none =>
      cases hurl : n.scriptUrl (FileName.sanitize s.filename) with
      | error e => simp [hfound, hurl, bind, Except.bind] at h
      | ok url =>
        simp only [hfound, hurl, bind, Except.bind] at h
        obtain ⟨new, rfl, hnew, hnodup, hnamed⟩ := ih h
        have hfirst : FileName.sanitize s.filename ∉ named.map Prod.fst := by
          intro hmem
          obtain ⟨given, hgiven, heq⟩ := List.mem_map.mp hmem
          exact absurd (List.find?_eq_none.mp hfound given hgiven) (by simp [heq])
        refine ⟨⟨url, PreparedScript.ofCode (FileName.sanitize s.filename) s.code⟩ :: new, by simp,
          .cons ⟨hurl, rfl⟩ hnew, ?_, ?_⟩
        · rw [List.map_cons, List.nodup_cons]
          refine ⟨fun hmem => ?_, hnodup⟩
          obtain ⟨t, ht, heq⟩ := List.mem_map.mp hmem
          exact hnamed t ht (by simp [heq])
        · intro t ht
          rcases List.mem_cons.mp ht with rfl | ht
          · exact hfirst
          · exact fun hmem => hnamed t ht (List.mem_cons_of_mem _ hmem)

/-- What the context of a build is made of. -/
theorem ofRequest_eq_ok (h : ofRequest config cache request = .ok c) :
    Namespaces.ofBase request.baseUrl config.platformHost = .ok c.namespaces ∧
      c.namespaces.frameworkUrl config.frameworkEntry = .ok c.entry ∧
      addScripts c.namespaces [] [] request.app.bundled = .ok c.scripts ∧
      c.config = config ∧ c.cache = cache ∧ c.target = request.target := by
  unfold ofRequest at h
  cases hbase : Namespaces.ofBase request.baseUrl config.platformHost with
  | error e => simp [hbase, Except.mapError, bind, Except.bind] at h
  | ok n =>
    cases hentry : n.frameworkUrl config.frameworkEntry with
    | error e => simp [hbase, hentry, Except.mapError, bind, Except.bind] at h
    | ok entry =>
      cases hscripts : addScripts n [] [] request.app.bundled with
      | error e => simp [hbase, hentry, hscripts, Except.mapError, bind, Except.bind] at h
      | ok scripts =>
        simp only [hbase, hentry, hscripts, Except.mapError, bind, Except.bind, pure, Except.pure,
          Except.ok.injEq] at h
        subst h
        exact ⟨rfl, hentry, hscripts, rfl, rfl, rfl⟩

/-- A prepared script has the name it was prepared under. -/
theorem filename_ofCode (filename code : String) : (PreparedScript.ofCode filename code).filename = filename := by
  unfold PreparedScript.ofCode
  split <;> rfl

/-- A prepared script has the code it was prepared from. -/
theorem code_ofCode (filename code : String) : (PreparedScript.ofCode filename code).code = code := by
  unfold PreparedScript.ofCode
  split <;> rfl

/-- **Scripts and what they are bundled as** stand in the same order, under names that differ. -/
theorem scripts_bundled (h : ofRequest config cache request = .ok c) :
    List.Forall₂ (IsBundledAs c.namespaces) request.app.bundled c.scripts ∧
      (c.scripts.map fun b => b.prepared.filename).Nodup := by
  obtain ⟨-, -, hscripts, -⟩ := ofRequest_eq_ok h
  obtain ⟨new, heq, hnew, hnodup, -⟩ := addScripts_eq_ok hscripts
  obtain rfl : c.scripts = new := heq
  refine ⟨hnew, ?_⟩
  have hnames : ∀ {scripts : List Script} {bundled : List BundledScript},
      List.Forall₂ (IsBundledAs c.namespaces) scripts bundled →
      bundled.map (fun b => b.prepared.filename) = scripts.map fun s => FileName.sanitize s.filename := by
    intro scripts bundled hall
    induction hall with
    | nil => rfl
    | cons hfirst _ ih => rw [List.map_cons, List.map_cons, ih, hfirst.2, filename_ofCode]
  rw [hnames hnew]
  exact hnodup

/-- Every bundled script stands for one of the app's. -/
theorem exists_script (h : ofRequest config cache request = .ok c) {b : BundledScript} (hb : b ∈ c.scripts) :
    ∃ s ∈ request.app.bundled, IsBundledAs c.namespaces s b := by
  obtain ⟨hall, -⟩ := scripts_bundled h
  generalize request.app.bundled = scripts, c.scripts = bundled at hall hb
  induction hall with
  | nil => simp at hb
  | @cons s b' _ _ hfirst _ ih =>
    rcases List.mem_cons.mp hb with rfl | hb
    · exact ⟨s, List.mem_cons_self, hfirst⟩
    · obtain ⟨t, ht, hof⟩ := ih hb
      exact ⟨t, List.mem_cons_of_mem _ ht, hof⟩

/-- Every script of the app is bundled. -/
theorem exists_bundledScript (h : ofRequest config cache request = .ok c) {s : Script}
    (hs : s ∈ request.app.bundled) : ∃ b ∈ c.scripts, IsBundledAs c.namespaces s b := by
  obtain ⟨hall, -⟩ := scripts_bundled h
  generalize request.app.bundled = scripts, c.scripts = bundled at hall hs
  induction hall with
  | nil => simp at hs
  | @cons s' b _ _ hfirst _ ih =>
    rcases List.mem_cons.mp hs with rfl | hs
    · exact ⟨b, List.mem_cons_self, hfirst⟩
    · obtain ⟨b, hb, hof⟩ := ih hs
      exact ⟨b, List.mem_cons_of_mem _ hb, hof⟩

/-! ## The usual base -/

/-- The usual directory of scripts is plain. -/
theorem isPlainDirectory_src : Url.IsPlainDirectory "src" :=
  ⟨⟨List.all_eq_true.mp (by decide), by decide, by unfold HasNoDots; decide⟩, by decide, by decide⟩

/-- The directory of the framework is plain. -/
theorem isPlainDirectory_framework : Url.IsPlainDirectory "framework" :=
  ⟨⟨List.all_eq_true.mp (by decide), by decide, by unfold HasNoDots; decide⟩, by decide, by decide⟩

/-- A directory is its own file of no name. -/
theorem localFile_nil (directory : String) : Url.localFile directory [] = localDirectory directory := by
  simp [Url.localFile, localDirectory]

/-- The roots of a build with the usual base are local directories. -/
theorem namespaces_of_usualBase (h : ofRequest config cache request = .ok c) (hbase : request.baseUrl = none) :
    c.namespaces.appRoot = localDirectory "src" ∧ c.namespaces.frameworkRoot = localDirectory "framework" := by
  obtain ⟨hnamespaces, -⟩ := ofRequest_eq_ok h
  have hnil : IsPlainName [] := ⟨by simp, by simp, by simp [HasNoDots]⟩
  have hparse := Url.parse_localFile isPlainDirectory_src hnil
  have htext : (Url.localFile "src" []).text = Namespaces.closedWithSlash Namespaces.defaultBase := by
    rw [← String.toList_inj]
    decide
  rw [htext, localFile_nil] at hparse
  rw [Namespaces.ofBase, hbase, Option.getD_none, hparse] at hnamespaces
  rw [← Except.ok.inj hnamespaces]
  exact ⟨rfl, rfl⟩

/-- With the usual base a script is a local file under its bundled name. -/
theorem url_of_usualBase (h : ofRequest config cache request = .ok c) (hbase : request.baseUrl = none)
    {s : Script} {b : BundledScript} (hb : IsBundledAs c.namespaces s b) :
    b.url = Url.localFile "src" (FileName.sanitized s.filename.toList) := by
  have hurl := hb.1
  rw [Namespaces.scriptUrl, (namespaces_of_usualBase h hbase).1, FileName.sanitize,
    Url.join_localDirectory isPlainDirectory_src (FileName.isPlainName_sanitized _)] at hurl
  exact (Except.ok.inj hurl).symm

/-- **Roots of a build with the usual base are read back as themselves** when the entry point of the framework
has a name that would be bundled as it is. -/
theorem parse_root (h : ofRequest config cache request = .ok c) (hbase : request.baseUrl = none)
    (hentry : FileName.sanitize config.frameworkEntry = config.frameworkEntry) {r : String} (hr : r ∈ c.roots) :
    ∃ u, Url.parse r = .ok u ∧ u.text = r := by
  rcases List.mem_cons.mp hr with rfl | hr
  · have hplain : IsPlainName (FileName.sanitized config.frameworkEntry.toList) :=
      FileName.isPlainName_sanitized _
    obtain ⟨-, hurl, -⟩ := ofRequest_eq_ok h
    rw [Namespaces.frameworkUrl, (namespaces_of_usualBase h hbase).2, ← hentry, FileName.sanitize,
      Url.join_localDirectory isPlainDirectory_framework hplain] at hurl
    rw [← Except.ok.inj hurl]
    exact ⟨_, Url.parse_localFile isPlainDirectory_framework hplain, rfl⟩
  · obtain ⟨b, hb, rfl⟩ := List.mem_map.mp hr
    obtain ⟨s, -, hs⟩ := exists_script h hb
    rw [url_of_usualBase h hbase hs]
    exact ⟨_, Url.parse_localFile isPlainDirectory_src (FileName.isPlainName_sanitized _), rfl⟩

end BuildContext

end AppBundler
