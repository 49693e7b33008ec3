import AppBundler.Proofs.Bundle.Contents
import AppBundler.Proofs.Bundle.Origins
import AppBundler.Proofs.Remote.Headers
/-!
# Artifacts are read back

The modules that loads bring have their headers in order. So has the artifact that is made of them, and then its
text is read back as the artifact.
-/

namespace AppBundler

/-! ## Reading back -/

namespace GraphModule

/-- The headers of a module, if the record is one, are in order. -/
def IsTidy (g : GraphModule) : Prop := ∀ m, g = .module m → m.IsTidy

theorem ofJson?_toJson {g : GraphModule} (h : g.IsTidy) : ofJson? g.toJson = some g := by
  cases g with
  | module m =>
    have hheaders : headersOfJson? (headersJson m.headers) = some m.headers := headersOfJson?_headersJson (h m rfl)
    simp [toJson, ofJson?, ofKind?, kind, SourceModule.ofJson?, Json.only?, Json.string?, hheaders]
  | redirect s target => simp [toJson, ofJson?, ofKind?, kind, Json.only?, Json.string?]
  | external s => simp [toJson, ofJson?, ofKind?, kind, Json.only?, Json.string?]

theorem fits_toJson (g : GraphModule) {d : Nat} : Json.Fits (d + 2) g.toJson := by
  have hheaders : ∀ headers, Json.Fits (d + 1) (headersJson headers) := fun headers => .object fun _ hm => by
    obtain ⟨h, -, rfl⟩ := List.mem_map.mp hm
    exact .string h.2
  cases g <;> exact .object (by simp [Json.Fits.string, hheaders])

end GraphModule

namespace Artifact

variable {a : Artifact}

/-- The headers of all modules are in order. -/
def IsTidy (a : Artifact) : Prop := ∀ g ∈ a.modules, g.IsTidy

theorem ofJson?_toJson (h : a.IsTidy) : ofJson? a.toJson = some a := by
  have hroots : (a.roots.map Json.string).mapM Json.string? = some a.roots :=
    mapM_map_eq_some fun _ _ => rfl
  have hmodules : (a.modules.map GraphModule.toJson).mapM GraphModule.ofJson? = some a.modules :=
    mapM_map_eq_some fun g hg => GraphModule.ofJson?_toJson (h g hg)
  simp [toJson, ofJson?, ofParts?, Json.only?, Json.string?, Json.strings?, Json.array?, hroots, hmodules]

theorem fits_toJson (a : Artifact) {d : Nat} : Json.Fits (d + 4) a.toJson := by
  have hroots : Json.Fits (d + 3) (.array (a.roots.map Json.string)) := .array fun _ hx => by
    obtain ⟨r, -, rfl⟩ := List.mem_map.mp hx
    exact .string r
  have hmodules : Json.Fits (d + 3) (.array (a.modules.map GraphModule.toJson)) := .array fun _ hx => by
    obtain ⟨g, -, rfl⟩ := List.mem_map.mp hx
    exact g.fits_toJson
  exact .object (by simp [Json.Fits.string, hroots, hmodules])

/-- **The text of an artifact is read back** as the artifact. -/
theorem ofText?_text (h : a.IsTidy) : ofText? a.text = some a := by
  have hfits : Json.Fits Json.depthLimit a.toJson := a.fits_toJson
  rw [ofText?, text, hfits.parseAsWritten]
  exact ofJson?_toJson h

end Artifact

/-! ## What loads bring -/

namespace BuildContext

variable {c : BuildContext} {around : Surroundings} {url : Url} {m : SourceModule}

/-- Headers stay in order when others are added. -/
theorem addHeaders_inOrder (others : List (String × String)) {headers : List (String × String)}
    (h : HeadersInOrder headers) : HeadersInOrder (addHeaders headers others) := by
  induction others generalizing headers with
  | nil => exact h
  | cons other others ih =>
    rw [addHeaders]
    split
    · exact ih h
    · exact ih (h.putSorted _ _)

/-- A module of the app or the framework has one header. -/
theorem singleHeader_inOrder (header : String × String) : HeadersInOrder [header] := List.pairwise_singleton _ _

/-- **Where a module comes from.** -/
theorem load_eq_source {w : LoadState} (h : (c.load around url w).1 = .ok (.source m)) :
    c.loadApp url = .ok m ∨ c.loadFramework around.readFile url = .ok m ∨
      (c.loadPlatform around.remote url w.remote).1 = .ok m ∨ (c.loadRemote around.remote url w.remote).1 = .ok m := by
  unfold load at h
  cases hclass : c.namespaces.classify url with
  | none => simp [hclass] at h
  | some k =>
    simp only [hclass] at h
    cases k with
    | external => cases h
    | app =>
      cases hm : c.loadApp url with
      | error e => simp [hm] at h
      | ok found => exact Or.inl (by simpa [hm] using h)
    | framework =>
      cases hm : c.loadFramework around.readFile url with
      | error e => simp [hm] at h
      | ok found => exact Or.inr (Or.inl (by simpa [hm] using h))
    | platformRemote =>
      cases hm : (c.loadPlatform around.remote url w.remote).1 with
      | error e => simp [hm] at h
      | ok found => exact Or.inr (Or.inr (Or.inl (by simpa [hm] using h)))
    | remote =>
      cases hm : (c.loadRemote around.remote url w.remote).1 with
      | error e => simp [hm] at h
      | ok found => exact Or.inr (Or.inr (Or.inr (by simpa [hm] using h)))

/-- The script of another app is tidy. -/
theorem isTidy_of_platformModule {served : SourceModule} (h : c.platformModule served = .ok m) : m.IsTidy := by
  unfold platformModule at h
  cases hurl : Url.parse served.specifier with
  | error e => simp [hurl, Except.mapError, bind, Except.bind] at h
  | ok url =>
    cases hcode : c.hosts.settleSource served.content url with
    | error e => simp [hurl, hcode, Except.mapError, bind, Except.bind] at h
    | ok code =>
      simp only [hurl, hcode, Except.mapError, bind, Except.bind, pure, Except.pure, Except.ok.injEq] at h
      exact h ▸ addHeaders_inOrder served.headers (singleHeader_inOrder typescript)

/-- The outcome of a request that was answered in time is the answer. -/
theorem eq_answered_of_inTime {answer : FetchAnswer} (h : c.inTime answer = .ok m) : answer = .answered (.ok m) := by
  cases answer with
  | silent => cases h
  | answered outcome =>
    cases outcome with
    | error e => cases h
    | ok found =>
      obtain rfl : found = m := Except.ok.inj h
      rfl

/-- **Loads bring tidy modules** when the fetcher does. -/
theorem Brings.isTidy (hfetch : around.remote.fetch.IsTidy) (h : c.Brings around url (.source m)) : m.IsTidy := by
  obtain ⟨w, hload⟩ := h
  rcases load_eq_source hload with h | h | h | h
  · obtain ⟨b, code, -, -, -, rfl⟩ := loadApp_eq_ok h
    exact singleHeader_inOrder typescript
  · cases htext : c.frameworkText around.readFile (Namespaces.pathUnder c.namespaces.frameworkRoot url) with
    | error e => simp [loadFramework, htext, Except.map] at h
    | ok content =>
      obtain rfl := (by simpa [loadFramework, htext, Except.map] using h : _ = m)
      exact singleHeader_inOrder _
  · cases hanswer : around.remote.fetch url.text with
    | silent => simp [loadPlatform, ModuleCache.ask, hanswer, inTime] at h
    | answered outcome =>
      cases outcome with
      | error e => simp [loadPlatform, ModuleCache.ask, hanswer, inTime, Except.bind] at h
      | ok served =>
        simp only [loadPlatform, ModuleCache.ask, hanswer, inTime, Except.bind] at h
        exact isTidy_of_platformModule h
  · cases hanswer : c.inTime (c.cache.load around.remote (some (c.deadline w.remote)) url.text c.target w.remote).1 with
    | error e => simp [loadRemote, hanswer, Except.map] at h
    | ok found =>
      have hfound := ModuleCache.isTidy_of_load hfetch (eq_answered_of_inTime hanswer)
      obtain rfl := (by simpa [loadRemote, hanswer, Except.map] using h : _ = m)
      exact hfound.filter _

end BuildContext

/-- A module that was recorded was brought. -/
theorem Resolution.exists_brings {brings : Url → Loaded → Prop} {start s : Resolution} {m : SourceModule}
    (h : Steps brings start s) (hstart : start.records = []) (hm : .module m ∈ s.records) :
    ∃ url, brings url (.source m) := by
  cases origin_of_steps h hstart _ hm with
  | plain _ hload => exact ⟨_, hload⟩
  | claimed hm =>
    obtain ⟨-, url, -, -, hload, -⟩ := hm
    exact ⟨url, hload⟩

/-- An artifact is tidy when all modules are that loads can bring. -/
theorem Artifact.isTidy_of_steps {brings : Url → Loaded → Prop} {roots : List String} {start s : Resolution}
    (hbrings : ∀ url m, brings url (.source m) → m.IsTidy) (hstart : Resolution.ofRoots roots = .ok start)
    (h : Resolution.Steps brings start s) : (Artifact.ofModules roots s.records).IsTidy := by
  rintro g hg m rfl
  obtain ⟨url, hurl⟩ := Resolution.exists_brings h (Resolution.records_ofRoots hstart) (Artifact.mem_ofModules.mp hg)
  exact hbrings url m hurl

/-- **A build gives a tidy artifact** when the fetcher brings tidy modules. -/
theorem BuildContext.Completes.isTidy {c : BuildContext} {around : Surroundings} {a : Artifact}
    (hfetch : around.remote.fetch.IsTidy) (h : c.Completes around a) : a.IsTidy := by
  obtain ⟨start, s, hstart, hsteps, -, rfl⟩ := h
  exact Artifact.isTidy_of_steps (fun _ _ hbrings => hbrings.isTidy hfetch) hstart hsteps

/-- What is built is tidy when the fetcher brings tidy modules. -/
theorem isTidy_of_buildArtifact {config : BuildConfig} {cache : ModuleCache} {around : Surroundings}
    {request : BuildRequest} {w : LoadState} {a : Artifact} (hfetch : around.remote.fetch.IsTidy)
    (h : (buildArtifact config cache around request w).1 = .ok a) : a.IsTidy := by
  cases hbuild : buildArtifact config cache around request w with
  | mk result w' =>
    rw [hbuild] at h
    obtain rfl : result = .ok a := h
    obtain ⟨c, -, hcan⟩ := BuildContext.exists_canBuild_of_buildArtifact hbuild
    exact hcan.completes.isTidy hfetch

end AppBundler
