import AppBundler.Proofs.Bundle.Contents
import AppBundler.Proofs.Bundle.Orders
/-!
# Where the settings of a build show

The host for calls and the signing secret are read in one place: where placeholders of a file of the framework are
replaced. Whatever else a build loads, its scripts, the generated modules and the modules of the network, is the same
under all values of the two, though its text may look like a placeholder.
-/

namespace AppBundler

/-! ## Texts without placeholders -/

namespace Placeholder

variable {v : PlaceholderValues} {content : String}

/-- The names of the settings. -/
def names : List (List Char) := (named ⟨none, none⟩).map Prod.fst

/-- A placeholder stands somewhere in a text: the name of a setting that is not the beginning of a longer name. -/
def Occurs (s : List Char) : Prop :=
  ∃ before, ∃ name ∈ names, ∃ rest, s = before ++ (name ++ rest) ∧ endsName rest = true

/-- What is replaced is a placeholder. -/
theorem occurs_of_here? {s text : List Char} {length : Nat} (h : here? v s = some (text, length)) : Occurs s := by
  obtain ⟨⟨name, value⟩, hnamed, hfound⟩ := List.exists_of_findSome?_eq_some h
  have hname : name ∈ (named v).map Prod.fst := List.mem_map_of_mem hnamed
  cases hdrop : Text.dropFront? name s with
  | none => simp [hdrop] at hfound
  | some rest =>
    have hs : s = name ++ rest := Text.dropFront?_eq_some_iff.mp hdrop
    by_cases hends : endsName rest = true
    · exact ⟨[], name, hname, rest, hs, hends⟩
    · simp [hdrop, hends] at hfound

/-- A placeholder behind a character is one of the whole text. -/
theorem Occurs.cons {s : List Char} (h : Occurs s) (c : Char) : Occurs (c :: s) := by
  obtain ⟨before, name, hname, rest, rfl, hends⟩ := h
  exact ⟨c :: before, name, hname, rest, rfl, hends⟩

/-- Characters among which no placeholder stands are left. -/
theorem replaceFrom_of_not_occurs {s : List Char} (h : ¬ Occurs s) : replaceFrom v 0 s = s := by
  induction s with
  | nil => rfl
  | cons c r ih =>
    cases hhere : here? v (c :: r) with
    | some found => exact absurd (occurs_of_here? hhere) h
    | none =>
      have hrest : ¬ Occurs r := fun hr => h (hr.cons c)
      simp only [replaceFrom, hhere, ih hrest]

/-- **A text without placeholders is left as it is**, whatever the settings. -/
theorem replace_of_not_occurs (h : ¬ Occurs content.toList) : replace v content = content := by
  rw [replace, replaceFrom_of_not_occurs h, String.ofList_toList]

end Placeholder

/-! ## Settings that are read for files of the framework alone -/

namespace BuildConfig

/-- The same settings with another directory of the framework and other values for the placeholders. -/
def withFramework (config : BuildConfig) (directory : String) (v : PlaceholderValues) : BuildConfig :=
  { config with frameworkDir := directory, rpcHost := v.rpcHost, hmacSecret := v.hmacSecret }

/-- The same settings with other values for the placeholders. -/
def withValues (config : BuildConfig) (v : PlaceholderValues) : BuildConfig :=
  { config with rpcHost := v.rpcHost, hmacSecret := v.hmacSecret }

end BuildConfig

namespace BuildContext

variable {c : BuildContext} {config : BuildConfig} {cache : ModuleCache} {request : BuildRequest}
variable {around : Surroundings} {url : Url} {w : LoadState} {directory : String} {v : PlaceholderValues}

/-- The same context under other settings. -/
def withConfig (c : BuildContext) (config : BuildConfig) : BuildContext := { c with config := config }

/-- **Setting up** reads none of these settings. -/
theorem ofRequest_withFramework (config : BuildConfig) (directory : String) (v : PlaceholderValues) :
    ofRequest (config.withFramework directory v) cache request =
    (ofRequest config cache request).map (·.withConfig (config.withFramework directory v)) := by
  unfold ofRequest
  change ((Namespaces.ofBase request.baseUrl config.platformHost).mapError BuildError.config >>= _) = _
  cases Namespaces.ofBase request.baseUrl config.platformHost with
  | error e => rfl
  | ok n =>
    change (n.frameworkUrl config.frameworkEntry >>= _) = Except.map _ (n.frameworkUrl config.frameworkEntry >>= _)
    cases n.frameworkUrl config.frameworkEntry with
    | error e => rfl
    | ok entry =>
      simp only [bind, Except.bind]
      cases addScripts n [] [] request.app.bundled <;> rfl

/-- What loading a file of the framework comes to. -/
theorem load_of_framework (h : c.namespaces.classify url = some .framework) :
    c.load around url w =
      (((c.loadFramework around.readFile url).map Loaded.source).mapError (.load url.text),
        { w with filesRead := w.filesRead ++ (c.fileOf? url).toList }) := by
  unfold load
  rw [h]
  cases c.loadFramework around.readFile url <;> rfl

/-- **Loading anything else** reads none of these settings and no file. -/
theorem load_elsewhere (around : Surroundings) (readFile : String → Except FileFault String) (directory : String)
    (v : PlaceholderValues) (h : c.namespaces.classify url ≠ some .framework) :
    (c.withConfig (c.config.withFramework directory v)).load ⟨readFile, around.remote⟩ url w =
      c.load around url w := by
  unfold load
  have hsame : (c.withConfig (c.config.withFramework directory v)).namespaces.classify url =
      c.namespaces.classify url := rfl
  rw [hsame]
  cases hclass : c.namespaces.classify url with
  | none => rfl
  | some cls =>
    cases cls with
    | framework => exact absurd hclass h
    | external => rfl
    | app => rfl
    | platformRemote => rfl
    | remote => rfl

/-! ## Files with placeholders -/

/-- A URL of the framework that is not one of the two generated modules. -/
def IsStaticFile (c : BuildContext) (url : Url) : Prop :=
  c.namespaces.classify url = some .framework ∧
    Namespaces.pathUnder c.namespaces.frameworkRoot url ≠ Boot.indexPath ∧
    Namespaces.pathUnder c.namespaces.frameworkRoot url ≠ Boot.descriptionPath

/-- The file of a URL can be read, and a placeholder stands in its text. -/
def HoldsPlaceholder (c : BuildContext) (around : Surroundings) (url : Url) : Prop :=
  ∃ text, Framework.readStatic around.readFile c.config.frameworkDir
      (Namespaces.pathUnder c.namespaces.frameworkRoot url) = .ok text ∧ Placeholder.Occurs text.toList

/-- The text of a file of the framework is the same under all values, unless placeholders stand in it. -/
theorem frameworkText_withValues {readFile : String → Except FileFault String} {path : String}
    (h : path ≠ Boot.indexPath → path ≠ Boot.descriptionPath → ∀ text,
      Framework.readStatic readFile c.config.frameworkDir path = .ok text → ¬ Placeholder.Occurs text.toList) :
    (c.withConfig (c.config.withValues v)).frameworkText readFile path = c.frameworkText readFile path := by
  unfold frameworkText
  by_cases hindex : path = Boot.indexPath
  · rw [if_pos hindex, if_pos hindex]
    rfl
  · by_cases hboot : path = Boot.descriptionPath
    · rw [if_neg hindex, if_pos hboot, if_neg hindex, if_pos hboot]
      rfl
    · have hclean := h hindex hboot
      rw [if_neg hindex, if_neg hboot, if_neg hindex, if_neg hboot]
      change (Framework.readStatic readFile c.config.frameworkDir path).map _ = _
      cases hread : Framework.readStatic readFile c.config.frameworkDir path with
      | error e => rfl
      | ok text =>
        have htext := hclean text hread
        simp only [Except.map, Placeholder.replace_of_not_occurs htext]

/-- **A load that shows no values** brings the same under all of them, and leaves the same traces. -/
theorem load_withValues (h : ¬ (c.IsStaticFile url ∧ c.HoldsPlaceholder around url)) :
    (c.withConfig (c.config.withValues v)).load around url w = c.load around url w := by
  by_cases hclass : c.namespaces.classify url = some .framework
  · have htext : (c.withConfig (c.config.withValues v)).loadFramework around.readFile url =
        c.loadFramework around.readFile url := by
      refine congrArg (Except.map _) (frameworkText_withValues fun hindex hboot text hread hoccurs => ?_)
      exact h ⟨⟨hclass, hindex, hboot⟩, text, hread, hoccurs⟩
    rw [load_of_framework hclass, load_of_framework (by exact hclass), htext]
    rfl
  · exact load_elsewhere around around.readFile _ v hclass

/-- **The values of placeholders reach files of the framework only.** Two builds whose settings differ in these values
are both refused for the same reason, or load every URL alike but for the files in which a placeholder stands. -/
theorem load_same_under_values (config : BuildConfig) (cache : ModuleCache) (request : BuildRequest)
    (around : Surroundings) (v v' : PlaceholderValues) :
    (∃ e, ofRequest (config.withValues v) cache request = .error e ∧
      ofRequest (config.withValues v') cache request = .error e) ∨
    ∃ c c', ofRequest (config.withValues v) cache request = .ok c ∧
      ofRequest (config.withValues v') cache request = .ok c' ∧
      ∀ url, (¬ c.IsStaticFile url ∨ ¬ c.HoldsPlaceholder around url) →
        ∀ w, c'.load around url w = c.load around url w := by
  have hother : ofRequest (config.withValues v') cache request =
      (ofRequest (config.withValues v) cache request).map (·.withConfig (config.withValues v')) :=
    ofRequest_withFramework (config.withValues v) _ v'
  cases hc : ofRequest (config.withValues v) cache request with
  | error e =>
    rw [hc] at hother
    exact Or.inl ⟨e, rfl, hother⟩
  | ok c =>
    rw [hc] at hother
    obtain ⟨-, -, -, hconfig, -⟩ := ofRequest_eq_ok hc
    refine Or.inr ⟨c, c.withConfig (config.withValues v'), rfl, hother, fun url hurl w => ?_⟩
    have hvalues : config.withValues v' = c.config.withValues v' := by rw [hconfig]; rfl
    rw [hvalues]
    exact load_withValues (not_and_or.mpr hurl)

/-- A script that reads the member of the environment that stands for the secret. -/
def secretReader : BuildRequest :=
  ⟨⟨"app", "app", none, [⟨"s", "a.tsx", "process.env.APPLET_HMAC_SECRET;", 0, ""⟩]⟩, "deno", "1", none⟩

/-- A framework of one file, which reads the same member. -/
def secretFramework : Surroundings where
  readFile path := if path = "framework/main.tsx" then .ok "process.env.APPLET_HMAC_SECRET;" else .error .notFound
  remote := ⟨fun _ => .silent, .all .sound, 0⟩

/-- The content of the module that a URL brings. -/
def content? (c : BuildContext) (around : Surroundings) (url : String) : Option String :=
  match Url.parse url with
  | .error _ => none
  | .ok url =>
    match (c.load around url .initial).1 with
    | .ok (.source m) => some m.content
    | _ => none

/-- A script that reads the secret loads alike under two secrets, while the file of the framework shows each. -/
theorem load_same_under_values_secretReader :
    ∃ c c' script, ofRequest (BuildConfig.default.withValues ⟨none, some "one"⟩) .default secretReader = .ok c ∧
      ofRequest (BuildConfig.default.withValues ⟨none, some "two"⟩) .default secretReader = .ok c' ∧
      Url.parse "file:///src/a.tsx" = .ok script ∧
      c'.load secretFramework script .initial = c.load secretFramework script .initial ∧
      c.content? secretFramework "file:///framework/main.tsx" = some "\"one\";" ∧
      c'.content? secretFramework "file:///framework/main.tsx" = some "\"two\";" := by
  have hscript : ((Url.parse "file:///src/a.tsx").toOption.map
      fun url => (Namespaces.ofBase none "applet.run").toOption.bind (·.classify url)) = some (some .app) := by
    decide +kernel
  have hone : (ofRequest (BuildConfig.default.withValues ⟨none, some "one"⟩) .default secretReader).toOption.bind
      (·.content? secretFramework "file:///framework/main.tsx") = some "\"one\";" := by decide +kernel
  have htwo : (ofRequest (BuildConfig.default.withValues ⟨none, some "two"⟩) .default secretReader).toOption.bind
      (·.content? secretFramework "file:///framework/main.tsx") = some "\"two\";" := by decide +kernel
  rcases load_same_under_values BuildConfig.default .default secretReader secretFramework ⟨none, some "one"⟩
    ⟨none, some "two"⟩ with ⟨e, he, -⟩ | ⟨c, c', hc, hc', hsame⟩
  · simp [he, Except.toOption] at hone
  · rw [hc] at hone
    rw [hc'] at htwo
    cases hurl : Url.parse "file:///src/a.tsx" with
    | error e => simp [hurl, Except.toOption] at hscript
    | ok script =>
      obtain ⟨hnamespaces, -⟩ := ofRequest_eq_ok hc
      have hbase : Namespaces.ofBase none "applet.run" = .ok c.namespaces := hnamespaces
      have happ : c.namespaces.classify script = some .app := by
        simpa [hurl, hbase, Except.toOption] using hscript
      have hstatic : ¬ c.IsStaticFile script := fun h => by simp [IsStaticFile, happ] at h
      exact ⟨c, c', script, hc, hc', rfl, hsame script (Or.inl hstatic) .initial, hone, htwo⟩

end BuildContext

end AppBundler
