import AppBundler.Bundle.Graph
import AppBundler.Proofs.Bundle.Caching
import AppBundler.Proofs.Bundle.Scripts
/-!
# A build comes out the same again

A build reads the id, the slug and the bundled scripts of an app, its version and the base of its URLs. A request that
agrees in these is built into the same artifact, whatever was built before, for whichever target and at whichever
time; only a table that lets a load wait for too long can make the build fail.
-/

namespace AppBundler

/-! ## Runs -/

namespace Resolution

variable {σ : Type} {load load' : Url → σ → Built Loaded × σ} {keeps keeps' : σ → Prop} {fuel : Nat}
variable {s : Resolution} {w w' : σ} {records : List GraphModule}

/-- A run keeps what every load keeps, whether it succeeds or not. -/
theorem run_keeps (hload : ∀ url w, keeps w → keeps (load url w).2) (hw : keeps w) : keeps (run load fuel s w).2 := by
  induction fuel generalizing s w with
  | zero => exact hw
  | succ fuel ih =>
    cases hpending : s.pending with
    | nil => simpa only [run, hpending] using hw
    | cons url rest =>
      have hnext := hload url w hw
      cases hresult : load url w with
      | mk result w₁ =>
        rw [hresult] at hnext
        cases result with
        | error e => simpa only [run, hpending, hresult] using hnext
        | ok loaded =>
          cases harrive : { s with pending := rest }.arrive url loaded with
          | error e => simpa only [run, hpending, hresult, harrive] using hnext
          | ok s₁ => simpa only [run, hpending, hresult, harrive] using ih hnext

/-- **A run is repeated** while each of its loads brings the same again: it comes to the same records, or fails in
the way in which a load fails. -/
theorem run_of_run {fails : BuildError → Prop} (hkeeps : ∀ url w, keeps w → keeps (load url w).2)
    (hkeeps' : ∀ url w, keeps' w → keeps' (load' url w).2)
    (hload : ∀ url w w' loaded, keeps w → keeps' w' → (load url w).1 = .ok loaded →
      (load' url w').1 = .ok loaded ∨ ∃ e, (load' url w').1 = .error e ∧ fails e)
    (hw : keeps w) (hw' : keeps' w') (h : (run load fuel s w).1 = .ok records) :
    (run load' fuel s w').1 = .ok records ∨ ∃ e, (run load' fuel s w').1 = .error e ∧ fails e := by
  -- Both runs are at the same point as long as their loads bring the same; only the states of loading differ.
  induction fuel generalizing s w w' with
  | zero => cases h
  | succ fuel ih =>
    cases hpending : s.pending with
    | nil =>
      simp only [run, hpending] at h ⊢
      exact Or.inl h
    | cons url rest =>
      have hnext := hkeeps url w hw
      have hnext' := hkeeps' url w' hw'
      have hsame := hload url w w'
      cases hresult : load url w with
      | mk result w₁ =>
      cases hresult' : load' url w' with
      | mk result' w₁' =>
      rw [hresult] at hnext hsame
      rw [hresult'] at hnext' hsame
      simp only [run, hpending, hresult, hresult'] at h ⊢
      cases result with
      | error e => cases h
      | ok loaded =>
        rcases hsame loaded hw hw' rfl with hagain | ⟨e, hfailed, he⟩
        · obtain rfl : result' = .ok loaded := hagain
          cases harrive : { s with pending := rest }.arrive url loaded with
          | error e => simp only [harrive, reduceCtorEq] at h
          | ok s₁ =>
            simp only [harrive] at h ⊢
            exact ih hnext hnext' h
        · obtain rfl : result' = .error e := hfailed
          exact Or.inr ⟨e, rfl, he⟩

end Resolution

/-! ## What a build reads -/

/-- What a build reads of a script. -/
def Script.source (s : Script) : String × String := (s.filename, s.code)

/-- Two requests agree in what a build reads, but for the target. -/
structure BuildRequest.Agrees (request request' : BuildRequest) : Prop where
  id : request'.app.id = request.app.id
  slug : request'.app.slug = request.app.slug
  version : request'.version = request.version
  baseUrl : request'.baseUrl = request.baseUrl
  /-- The bundled scripts come in the same order. -/
  scripts : request'.app.bundled.map Script.source = request.app.bundled.map Script.source

namespace BuildContext

variable {config : BuildConfig} {cache : ModuleCache} {request request' : BuildRequest}

/-- The scripts of a build follow from what is read of them. -/
theorem addScripts_congr {n : Namespaces} {named : List (String × String)} {done : List BundledScript}
    {scripts scripts' : List Script} (h : scripts'.map Script.source = scripts.map Script.source) :
    addScripts n named done scripts' = addScripts n named done scripts := by
  induction scripts generalizing scripts' named done with
  | nil => rw [List.map_eq_nil_iff.mp h]
  | cons s scripts ih =>
    obtain ⟨s', rest', rfl, hs, hrest⟩ := List.map_eq_cons_iff.mp h
    obtain ⟨hfilename, hcode⟩ := Prod.mk.inj hs
    rw [addScripts, addScripts, hfilename, hcode]
    cases named.find? fun given => given.1 = FileName.sanitize s.filename with
    | some given => rfl
    | none => simp only [ih hrest]

/-- **Requests that agree** have one context, but for the target. -/
theorem ofRequest_congr (h : request.Agrees request') :
    ofRequest config cache request' = (ofRequest config cache request).map (retarget · request'.target) := by
  unfold ofRequest
  rw [h.baseUrl, h.id, h.slug, h.version]
  cases Namespaces.ofBase request.baseUrl config.platformHost with
  | error e => rfl
  | ok n =>
    cases hentry : n.frameworkUrl config.frameworkEntry with
    | error e => simp [Except.mapError, bind, Except.bind, Except.map, hentry]
    | ok entry =>
      simp only [Except.mapError, bind, Except.bind, hentry, addScripts_congr h.scripts]
      cases addScripts n [] [] request.app.bundled <;> rfl

end BuildContext

/-! ## Builds -/

section Builds

variable {config : BuildConfig} {cache : ModuleCache} {request request' : BuildRequest} {around : Surroundings}
variable {w w' : LoadState} {a : Artifact} {calendar : Int}

/-- **A build keeps the cache a mirror**, whether it succeeds or not. -/
theorem ModuleCache.Mirrors.buildArtifact (h : cache.Mirrors around.remote.fetch w.remote.table)
    (htarget : IsPlainTarget request.target) (hdated : around.remote.IsDated) (htidy : around.remote.fetch.IsTidy) :
    cache.Mirrors around.remote.fetch (buildArtifact config cache around request w).2.remote.table := by
  unfold AppBundler.buildArtifact
  cases hc : BuildContext.ofRequest config cache request with
  | error e => exact h
  | ok c =>
    obtain ⟨-, -, -, -, rfl, hctarget⟩ := BuildContext.ofRequest_eq_ok hc
    have hload : ∀ url w, c.Mirrors around w → c.Mirrors around (c.load around url w).2 := fun url w hw =>
      hw.load (hctarget ▸ htarget) hdated htidy url
    change c.Mirrors around (c.resolve around w).2
    unfold BuildContext.resolve
    cases Resolution.ofRoots c.roots with
    | error e => exact h
    | ok start => exact Resolution.run_keeps hload h

/-- **A build comes out the same again** for a request that agrees, whatever was built before and at whichever time,
unless it is let wait for the table for too long. -/
theorem buildArtifact_of_buildArtifact (around : Surroundings) (hagrees : request.Agrees request')
    (hw : cache.Mirrors around.remote.fetch w.remote.table) (hw' : cache.Mirrors around.remote.fetch w'.remote.table)
    (htarget : IsPlainTarget request.target) (htarget' : IsPlainTarget request'.target)
    (hdated : around.remote.IsDated) (hdated' : (around.onDate calendar).remote.IsDated) (htidy : around.remote.fetch.IsTidy)
    (h : (buildArtifact config cache around request w).1 = .ok a) :
    (buildArtifact config cache (around.onDate calendar) request' w').1 = .ok a ∨
      ¬ around.remote.health.IsSteady ∧ ∃ url, (buildArtifact config cache (around.onDate calendar) request' w').1 =
        .error (.load url (.timedOut config.networkTimeout)) := by
  unfold buildArtifact at h ⊢
  rw [BuildContext.ofRequest_congr hagrees]
  cases hc : BuildContext.ofRequest config cache request with
  | error e => simp [hc] at h
  | ok c =>
    simp only [hc, Except.map] at h ⊢
    obtain ⟨-, -, -, rfl, rfl, hctarget⟩ := BuildContext.ofRequest_eq_ok hc
    rw [← hctarget] at htarget
    have hroots : (c.retarget request'.target).roots = c.roots := rfl
    unfold BuildContext.resolve at h ⊢
    rw [hroots]
    cases hstart : Resolution.ofRoots c.roots with
    | error e => simp [hstart] at h
    | ok start =>
      simp only [hstart] at h ⊢
      cases hrun : (start.run (c.load around) moduleLimit w).1 with
      | error e => simp [hrun, Except.map] at h
      | ok records =>
        obtain rfl : Artifact.ofModules c.roots records = a := by simpa [hrun, Except.map] using h
        have hkeeps : ∀ url w, c.Mirrors around w → c.Mirrors around (c.load around url w).2 :=
          fun url w hw => hw.load htarget hdated htidy url
        have hkeeps' : ∀ url w, c.Mirrors around w →
            c.Mirrors around ((c.retarget request'.target).load (around.onDate calendar) url w).2 := by
          intro url w hw
          have hagain : (c.retarget request'.target).Mirrors (around.onDate calendar) w := hw
          exact hagain.load htarget' hdated' htidy url
        have hload : ∀ url w w' loaded, c.Mirrors around w → c.Mirrors around w' →
            (c.load around url w).1 = .ok loaded →
            ((c.retarget request'.target).load (around.onDate calendar) url w').1 = .ok loaded ∨
              ∃ e, ((c.retarget request'.target).load (around.onDate calendar) url w').1 = .error e ∧
                (¬ around.remote.health.IsSteady ∧ ∃ url, e = .load url (.timedOut c.config.networkTimeout)) := by
          intro url w w' loaded hw hw' hloaded
          refine (BuildContext.load_of_load hw hw' htarget htarget' hloaded).imp_right ?_
          rintro ⟨hslow, hlate⟩
          exact ⟨_, hlate, hslow, url.text, rfl⟩
        rcases Resolution.run_of_run hkeeps hkeeps' hload hw hw' hrun with hagain | ⟨e, hfailed, hslow, url, rfl⟩
        · rw [hagain]
          exact Or.inl rfl
        · rw [hfailed]
          exact Or.inr ⟨hslow, url, rfl⟩

end Builds

end AppBundler
