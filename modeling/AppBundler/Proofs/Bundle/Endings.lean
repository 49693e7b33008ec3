import AppBundler.Proofs.Bundle.Orders
/-!
# Builds as sequences of loads that end

The loads of a build run side by side, next to those of other builds. Such a build is told in full by which load ends
next and by what happens to the network and to the cache until then. Told so, an order of loading is a list, and a build
is a function of it that also says how the build fails.
-/

namespace AppBundler

/-- A load that ends. -/
structure LoadEnd where
  url : Url
  /-- The network and the table at that moment. -/
  world : RemoteWorld
  /-- What time and other builds did to the cache and the clock since the load before it ended. -/
  meanwhile : RemoteState → RemoteState

namespace BuildContext

variable {c : BuildContext} {readFile : String → Except FileFault String} {ends : List LoadEnd}
variable {s s' : Resolution} {w w' : LoadState}

/-- Lets loads end one after another until one fails. Nothing comes of it when one of them is not pending. -/
def endLoads (c : BuildContext) (readFile : String → Except FileFault String) :
    List LoadEnd → Resolution → LoadState → Option (Built Resolution × LoadState)
  | [], s, w => some (.ok s, w)
  | e :: r, s, w =>
    if e.url ∈ s.pending then
      match c.load ⟨readFile, e.world⟩ e.url { w with remote := e.meanwhile w.remote } with
      | (.error fault, w) => some (.error fault, w)
      | (.ok loaded, w) =>
        match { s with pending := s.pending.erase e.url }.arrive e.url loaded with
        | .error fault => some (.error fault, w)
        | .ok s => endLoads c readFile r s w
    else none

/-- What is told of a resolution in the end: its failure, or its artifact when nothing is pending. -/
def artifact? (c : BuildContext) : Built Resolution → Option (Built Artifact)
  | .error fault => some (.error fault)
  | .ok s => if s.pending = [] then some (.ok (Artifact.ofModules c.roots s.records)) else none

/-- What the loads come to when they end in an order. Nothing comes of it when some are still pending. -/
def resolveInOrder (c : BuildContext) (readFile : String → Except FileFault String) (ends : List LoadEnd)
    (w : LoadState) : Option (Built Artifact × LoadState) :=
  match Resolution.ofRoots c.roots with
  | .error fault => some (.error fault, w)
  | .ok start => (c.endLoads readFile ends start w).bind fun came => (c.artifact? came.1).map (·, came.2)

/-! ## The order in which loads were asked for -/

/-- Loads that end in the order in which they were asked for. -/
theorem exists_endLoads_of_run {around : Surroundings} {fuel : Nat} {result : Built (List GraphModule)}
    (h : s.run (c.load around) fuel w = (result, w')) (hended : result ≠ .error .endless) :
    ∃ ends, match result with
      | .error fault => c.endLoads around.readFile ends s w = some (.error fault, w')
      | .ok records =>
        ∃ s', c.endLoads around.readFile ends s w = some (.ok s', w') ∧ s'.pending = [] ∧ s'.records = records := by
  induction fuel generalizing s w with
  | zero =>
    obtain ⟨rfl, -⟩ := Prod.mk.inj h
    exact absurd rfl hended
  | succ fuel ih =>
    cases hpending : s.pending with
    | nil =>
      obtain ⟨rfl, rfl⟩ : .ok s.records = result ∧ w = w' := by simpa [Resolution.run, hpending] using h
      exact ⟨[], s, rfl, hpending, rfl⟩
    | cons url rest =>
      -- Nothing else happens before the oldest load ends.
      let next : LoadEnd := ⟨url, around.remote, id⟩
      have herase : s.pending.erase url = rest := by simp [hpending]
      have hstep : ∀ ends, c.endLoads around.readFile (next :: ends) s w =
          match c.load around url w with
          | (.error fault, w) => some (.error fault, w)
          | (.ok loaded, w) =>
            match { s with pending := rest }.arrive url loaded with
            | .error fault => some (.error fault, w)
            | .ok s => c.endLoads around.readFile ends s w := by
        intro ends
        rw [endLoads, if_pos (by simp [next, hpending])]
        simp only [next, herase, id]
      cases hload : c.load around url w with
      | mk loaded w₁ =>
      cases loaded with
      | error fault =>
        obtain ⟨rfl, rfl⟩ : .error fault = result ∧ w₁ = w' := by
          simpa [Resolution.run, hpending, hload] using h
        exact ⟨[next], by rw [hstep, hload]⟩
      | ok loaded =>
        cases harrive : { s with pending := rest }.arrive url loaded with
        | error fault =>
          obtain ⟨rfl, rfl⟩ : .error fault = result ∧ w₁ = w' := by
            simpa [Resolution.run, hpending, hload, harrive] using h
          exact ⟨[next], by simp only [hstep, hload, harrive]⟩
        | ok s₁ =>
          obtain ⟨ends, hends⟩ := ih (by simpa [Resolution.run, hpending, hload, harrive] using h)
          have hrest : c.endLoads around.readFile (next :: ends) s w = c.endLoads around.readFile ends s₁ w₁ := by
            simp only [hstep, hload, harrive]
          exact ⟨next :: ends, by rw [hrest]; exact hends⟩

/-- **The order in which loads were asked for** is one of the orders in which they can end. -/
theorem exists_resolveInOrder {around : Surroundings}
    (hended : (c.resolve around w).1 ≠ .error .endless) :
    ∃ ends, c.resolveInOrder around.readFile ends w = some (c.resolve around w) := by
  unfold resolve at hended ⊢
  unfold resolveInOrder
  cases hstart : Resolution.ofRoots c.roots with
  | error fault => exact ⟨[], rfl⟩
  | ok start =>
    cases hrun : start.run (c.load around) moduleLimit w with
    | mk result w' =>
    have hresult : result ≠ .error .endless := by
      rintro rfl
      simp [hstart, hrun, Except.map] at hended
    obtain ⟨ends, hends⟩ := exists_endLoads_of_run hrun hresult
    refine ⟨ends, ?_⟩
    cases result with
    | error fault => simp [hends, hrun, artifact?, Except.map]
    | ok records =>
      obtain ⟨s, hcomes, hdone, rfl⟩ := hends
      simp [hcomes, hdone, hrun, artifact?, Except.map]

end BuildContext

/-- What a build comes to when its loads end in an order. -/
def buildInOrder (config : BuildConfig) (cache : ModuleCache) (readFile : String → Except FileFault String)
    (request : BuildRequest) (ends : List LoadEnd) (w : LoadState) : Option (Built Artifact × LoadState) :=
  match BuildContext.ofRequest config cache request with
  | .error fault => some (.error fault, w)
  | .ok c => c.resolveInOrder readFile ends w

/-- **Building an app** is building it in one of the orders. -/
theorem exists_buildInOrder {config : BuildConfig} {cache : ModuleCache} {around : Surroundings}
    {request : BuildRequest} {w : LoadState}
    (hended : (buildArtifact config cache around request w).1 ≠ .error .endless) :
    ∃ ends, buildInOrder config cache around.readFile request ends w =
      some (buildArtifact config cache around request w) := by
  unfold buildArtifact at hended ⊢
  unfold buildInOrder
  cases hc : BuildContext.ofRequest config cache request with
  | error fault => exact ⟨[], rfl⟩
  | ok c =>
    rw [hc] at hended
    exact BuildContext.exists_resolveInOrder hended

end AppBundler
