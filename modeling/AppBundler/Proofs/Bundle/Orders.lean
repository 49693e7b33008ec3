import Mathlib.Logic.Relation
import AppBundler.Bundle.Graph
/-!
# Orders of loading

The loads of one build run side by side and may end in any order. An order is a run of steps, each of which
takes one of the pending URLs, whichever it is, and takes in what it brought. Everything that is proved for
the runs of `Step` holds for whatever order the loads end in; the order in which the loads were asked for,
which `Resolution.run` follows, is one of them.

What an arrival can do is said once, by `Arrival`: no later proof opens `Resolution.arrive`.
-/

namespace AppBundler

namespace Resolution

variable {s s' : Resolution} {url : Url} {loaded : Loaded}

/-! ## Asking for URLs -/

/-- **What asking adds.** Of the URLs asked for, those with a new specifier become pending, each specifier
once, and all of their specifiers have been seen from then on. -/
theorem exists_foldl_request (urls : List Url) (s : Resolution) :
    ∃ new : List Url,
      urls.foldl request s = ⟨(new.map Url.text).reverse ++ s.seen, s.pending ++ new, s.records⟩ ∧
      new ⊆ urls ∧ (new.map Url.text).Nodup ∧ (∀ u ∈ new, u.text ∉ s.seen) ∧
      ∀ u ∈ urls, u.text ∈ s.seen ∨ u.text ∈ new.map Url.text := by
  induction urls generalizing s with
  | nil => exact ⟨[], by simp⟩
  | cons u r ih =>
    by_cases hu : u.text ∈ s.seen
    · obtain ⟨new, heq, hsub, hnodup, hnew, hall⟩ := ih s
      refine ⟨new, ?_, fun v hv => List.mem_cons_of_mem _ (hsub hv), hnodup, hnew, ?_⟩
      · simpa [request, hu] using heq
      · intro v hv
        rcases List.mem_cons.mp hv with rfl | hv
        · exact Or.inl hu
        · exact hall v hv
    · obtain ⟨new, heq, hsub, hnodup, hnew, hall⟩ :=
        ih { s with seen := u.text :: s.seen, pending := s.pending ++ [u] }
      refine ⟨u :: new, ?_, ?_, ?_, ?_, ?_⟩
      · simpa [request, hu] using heq
      · exact fun v hv => List.mem_cons.mpr ((List.mem_cons.mp hv).imp_right (hsub ·))
      · rw [List.map_cons, List.nodup_cons]
        refine ⟨fun hmem => ?_, hnodup⟩
        obtain ⟨v, hv, hvu⟩ := List.mem_map.mp hmem
        exact hnew v hv (by simp [hvu])
      · intro v hv
        rcases List.mem_cons.mp hv with rfl | hv
        · exact hu
        · exact fun hmem => hnew v hv (List.mem_cons_of_mem _ hmem)
      · intro v hv
        rcases List.mem_cons.mp hv with rfl | hv
        · exact Or.inr (by simp)
        · rcases hall v hv with h | h
          · rcases List.mem_cons.mp h with h | h
            · exact Or.inr (by simp [h])
            · exact Or.inl h
          · exact Or.inr (List.mem_cons_of_mem _ h)

/-! ## What an arrival does -/

/-- The ways in which a resolution can take in what arrived for a URL. -/
inductive Arrival (s : Resolution) (url : Url) : Loaded → Resolution → Prop
  /-- The program that runs the bundle has the module. -/
  | external : Arrival s url .external (s.record (.external url.text))
  /-- The module lies where it was asked for. -/
  | plain {m : SourceModule} {urls : List Url} (hsame : m.specifier = url.text)
      (hdeps : dependencies m url = .ok urls) :
      Arrival s url (.source m) ((urls.foldl request s).record (.module m))
  /-- The module lies under a specifier that something else has claimed. -/
  | known {m : SourceModule} (hother : m.specifier ≠ url.text) (hseen : m.specifier ∈ s.seen) :
      Arrival s url (.source m) (s.record (.redirect url.text m.specifier))
  /-- The module claims the specifier that it lies under. -/
  | claimed {m : SourceModule} {base : Url} {urls : List Url} (hother : m.specifier ≠ url.text)
      (hnew : m.specifier ∉ s.seen) (hbase : Url.parse m.specifier = .ok base)
      (hdeps : dependencies m base = .ok urls) :
      Arrival s url (.source m)
        ((urls.foldl request
          { s.record (.redirect url.text m.specifier) with seen := m.specifier :: s.seen }).record (.module m))

/-- Taking in a module succeeds when its dependencies can be told. -/
theorem takeIn_eq_ok_iff {m : SourceModule} {base : Url} :
    s.takeIn m base = .ok s' ↔
      ∃ urls, dependencies m base = .ok urls ∧ s' = (urls.foldl request s).record (.module m) := by
  unfold takeIn
  cases dependencies m base with
  | error e => simp [bind, Except.bind]
  | ok urls => simp [bind, Except.bind, pure, Except.pure, eq_comm]

/-- **Arrivals are told apart by `Arrival`.** -/
theorem arrive_eq_ok_iff : s.arrive url loaded = .ok s' ↔ Arrival s url loaded s' := by
  constructor
  · intro h
    cases loaded with
    | external =>
      obtain rfl : s.record (.external url.text) = s' := by simpa [arrive] using h
      exact .external
    | source m =>
      by_cases hsame : m.specifier = url.text
      · obtain ⟨urls, hdeps, rfl⟩ := takeIn_eq_ok_iff.mp (by simpa [arrive, hsame] using h)
        exact .plain hsame hdeps
      · by_cases hseen : m.specifier ∈ s.seen
        · obtain rfl : s.record (.redirect url.text m.specifier) = s' := by
            simpa [arrive, hsame, record, hseen] using h
          exact .known hsame hseen
        · cases hbase : Url.parse m.specifier with
          | error e => simp [arrive, hsame, record, hseen, hbase] at h
          | ok base =>
            simp only [arrive, hsame, if_false, record, List.contains_iff_mem, hseen, hbase] at h
            obtain ⟨urls, hdeps, rfl⟩ := takeIn_eq_ok_iff.mp h
            exact .claimed hsame hseen hbase hdeps
  · intro h
    cases h with
    | external => rfl
    | plain hsame hdeps =>
      simp only [arrive, hsame, if_true]
      exact takeIn_eq_ok_iff.mpr ⟨_, hdeps, rfl⟩
    | known hother hseen => simp [arrive, hother, record, hseen]
    | claimed hother hnew hbase hdeps =>
      simp only [arrive, hother, if_false, record, List.contains_iff_mem, hnew, hbase]
      exact takeIn_eq_ok_iff.mpr ⟨_, hdeps, rfl⟩

/-- **What an arrival asks for** was not seen before and is named by the module that arrived. -/
theorem Arrival.mem_pending {u : Url} (h : Arrival s url loaded s') (hu : u ∈ s'.pending) :
    u ∈ s.pending ∨ u.text ∉ s.seen ∧ ∃ m base urls, loaded = .source m ∧
      (base = url ∨ Url.parse m.specifier = .ok base) ∧ dependencies m base = .ok urls ∧ u ∈ urls := by
  have hasked : ∀ {t : Resolution} (urls : List Url), u ∈ (urls.foldl request t).pending →
      u ∈ t.pending ∨ u.text ∉ t.seen ∧ u ∈ urls := by
    intro t urls hu
    obtain ⟨new, heq, hsub, -, hnew, -⟩ := exists_foldl_request urls t
    rw [heq] at hu
    exact (List.mem_append.mp hu).imp_right fun hu => ⟨hnew u hu, hsub hu⟩
  cases h with
  | external => exact Or.inl hu
  | plain hsame hdeps =>
    exact (hasked _ hu).imp_right fun ⟨hnew, hin⟩ => ⟨hnew, _, url, _, rfl, Or.inl rfl, hdeps, hin⟩
  | known => exact Or.inl hu
  | claimed _ _ hbase hdeps =>
    refine (hasked _ hu).imp_right fun ⟨hnew, hin⟩ => ⟨fun hseen => hnew ?_, _, _, _, rfl, Or.inr hbase, hdeps, hin⟩
    exact List.mem_cons_of_mem _ hseen

/-! ## Steps and runs -/

/-- One of the pending loads ends, whichever it is, and what it brought is taken in. -/
inductive Step (brings : Url → Loaded → Prop) (s : Resolution) : Resolution → Prop
  | arrived {url : Url} {loaded : Loaded} {s' : Resolution} (hpending : url ∈ s.pending)
      (hbrings : brings url loaded)
      (harrive : { s with pending := s.pending.erase url }.arrive url loaded = .ok s') : Step brings s s'

/-- A run: loads end one after another. -/
abbrev Steps (brings : Url → Loaded → Prop) : Resolution → Resolution → Prop :=
  Relation.ReflTransGen (Step brings)

/-- More loads allow more runs. -/
theorem Steps.mono {brings brings' : Url → Loaded → Prop} (hle : ∀ u l, brings u l → brings' u l)
    (h : Steps brings s s') : Steps brings' s s' := by
  refine Relation.ReflTransGen.mono ?_ _ _ h
  rintro a b ⟨hpending, hbrings, harrive⟩
  exact ⟨hpending, hle _ _ hbrings, harrive⟩

/-! ## Loads that leave traces -/

section Traces

variable {σ : Type} {load : Url → σ → Built Loaded × σ} {w w' : σ}

/-- One of the pending loads ends, whichever it is: what it brought is taken in, and it leaves its traces. -/
inductive LoadStep (load : Url → σ → Built Loaded × σ) : Resolution × σ → Resolution × σ → Prop
  | arrived {s s' : Resolution} {w w' : σ} {url : Url} {loaded : Loaded} (hpending : url ∈ s.pending)
      (hload : load url w = (.ok loaded, w'))
      (harrive : { s with pending := s.pending.erase url }.arrive url loaded = .ok s') :
      LoadStep load (s, w) (s', w')

/-- A run in which every load sees the traces of those before it. -/
abbrev LoadSteps (load : Url → σ → Built Loaded × σ) : Resolution × σ → Resolution × σ → Prop :=
  Relation.ReflTransGen (LoadStep load)

/-- A run with traces is a run in which a load brings what it can bring after any others. -/
theorem LoadSteps.steps (h : LoadSteps load (s, w) (s', w')) :
    Steps (fun url loaded => ∃ w, (load url w).1 = .ok loaded) s s' := by
  generalize hp : (s', w') = p at h
  induction h generalizing s' w' with
  | refl =>
    cases hp
    exact .refl
  | tail _ hstep ih =>
    cases hstep with
    | arrived hpending hload harrive =>
      cases hp
      exact (ih rfl).tail ⟨hpending, ⟨_, by rw [hload]⟩, harrive⟩

/-- The order in which the loads were asked for is one of all orders. -/
theorem run_eq_ok {fuel : Nat} {records : List GraphModule} (h : run load fuel s w = (.ok records, w')) :
    ∃ s', LoadSteps load (s, w) (s', w') ∧ s'.pending = [] ∧ s'.records = records := by
  induction fuel generalizing s w with
  | zero => simp [run] at h
  | succ fuel ih =>
    cases hp : s.pending with
    | nil =>
      obtain ⟨hrecords, rfl⟩ := (by simpa [run, hp] using h : s.records = records ∧ w = w')
      exact ⟨s, .refl, hp, hrecords⟩
    | cons url r =>
      cases hload : load url w with
      | mk result w₁ =>
      cases result with
      | error e => simp [run, hp, hload] at h
      | ok loaded =>
        cases harrive : { s with pending := r }.arrive url loaded with
        | error e => simp [run, hp, hload, harrive] at h
        | ok s₁ =>
          obtain ⟨s', hsteps, hdone, hrecords⟩ := ih (by simpa [run, hp, hload, harrive] using h)
          refine ⟨s', .head ?_ hsteps, hdone, hrecords⟩
          have hpending : url ∈ s.pending := by simp [hp]
          exact .arrived hpending hload (by simpa [hp] using harrive)

end Traces

end Resolution

/-! ## Builds in any order -/

/-- Nothing has been loaded and nothing is cached. -/
def LoadState.initial : LoadState := ⟨⟨⟨[]⟩, 0, []⟩, []⟩

/-- The build of an app without scripts. -/
def BuildRequest.empty : BuildRequest := ⟨⟨"app", "app", none, []⟩, "deno", "1", none⟩

namespace BuildContext

/-- What loading a URL can bring, whatever was loaded before it. -/
def Brings (c : BuildContext) (around : Surroundings) (url : Url) (loaded : Loaded) : Prop :=
  ∃ w : LoadState, (c.load around url w).1 = .ok loaded

/-- The artifact comes out when the loads end in some order. -/
def Completes (c : BuildContext) (around : Surroundings) (a : Artifact) : Prop :=
  ∃ start s, Resolution.ofRoots c.roots = .ok start ∧ Resolution.Steps (c.Brings around) start s ∧
    s.pending = [] ∧ a = Artifact.ofModules c.roots s.records

/-- A build that begins with `w` succeeds in some order. -/
def CanBuild (c : BuildContext) (around : Surroundings) (w : LoadState) (a : Artifact) : Prop :=
  ∃ start s w', Resolution.ofRoots c.roots = .ok start ∧
    Resolution.LoadSteps (c.load around) (start, w) (s, w') ∧ s.pending = [] ∧
    a = Artifact.ofModules c.roots s.records

/-- A build that takes the loads in the order in which they were asked for is one of them. -/
theorem canBuild_of_resolve {c : BuildContext} {around : Surroundings} {w w' : LoadState} {a : Artifact}
    (h : c.resolve around w = (.ok a, w')) : c.CanBuild around w a := by
  unfold resolve at h
  cases hstart : Resolution.ofRoots c.roots with
  | error e => simp [hstart] at h
  | ok start =>
    rw [hstart] at h
    cases hrun : start.run (c.load around) moduleLimit w with
    | mk result w₁ =>
    cases result with
    | error e => simp [hrun, Except.map] at h
    | ok records =>
      obtain ⟨s, hsteps, hdone, rfl⟩ := Resolution.run_eq_ok hrun
      obtain ⟨rfl, -⟩ : Artifact.ofModules c.roots s.records = a ∧ w₁ = w' := by
        simpa [hrun, Except.map] using h
      exact ⟨start, s, w₁, hstart, hsteps, hdone, rfl⟩

/-- A build whose loads leave traces is one whose loads bring what they can bring. -/
theorem CanBuild.completes {c : BuildContext} {around : Surroundings} {w : LoadState} {a : Artifact}
    (h : c.CanBuild around w a) : c.Completes around a := by
  obtain ⟨start, s, w', hstart, hsteps, hdone, ha⟩ := h
  exact ⟨start, s, hstart, hsteps.steps, hdone, ha⟩

/-- A successful build is that of a context whose loads ended in some order. -/
theorem exists_canBuild_of_buildArtifact {config : BuildConfig} {cache : ModuleCache} {around : Surroundings}
    {request : BuildRequest} {w w' : LoadState} {a : Artifact}
    (h : buildArtifact config cache around request w = (.ok a, w')) :
    ∃ c, ofRequest config cache request = .ok c ∧ c.CanBuild around w a := by
  unfold buildArtifact at h
  cases hc : ofRequest config cache request with
  | error e => simp [hc] at h
  | ok c =>
    rw [hc] at h
    exact ⟨c, rfl, canBuild_of_resolve h⟩

end BuildContext

end AppBundler
