import AppBundler.Proofs.Bundle.Contest
import AppBundler.Proofs.Bundle.Loads
/-!
# Builds whose loads race

A build whose loads end in any order, each of which changes the cache and the clock for those after it. Since what
a load brings depends on its URL alone, such a build is a run over one function from URLs to outcomes, and what
`Contest` says about these runs holds for it.
-/

namespace AppBundler

namespace BuildContext

variable {c : BuildContext} {around : Surroundings} {w w' : LoadState} {s s' start : Resolution} {a : Artifact}

/-! ## Builds in some order -/

/-- A build that began with `w` has come to `s` and `w'` in some order. -/
def ComesTo (c : BuildContext) (around : Surroundings) (w : LoadState) (s : Resolution) (w' : LoadState) : Prop :=
  ∃ start, Resolution.ofRoots c.roots = .ok start ∧ Resolution.LoadSteps (c.load around) (start, w) (s, w')

/-- One of the loads that are pending fails, or what it brings cannot be taken in. -/
def FailsAt (c : BuildContext) (around : Surroundings) (s : Resolution) (w : LoadState) : Prop :=
  ∃ url ∈ s.pending, (∃ e, (c.load around url w).1 = .error e) ∨
    ∃ loaded e, (c.load around url w).1 = .ok loaded ∧
      { s with pending := s.pending.erase url }.arrive url loaded = .error e

/-- Whatever the order, the build does not fail and goes on until it succeeds with an artifact. -/
def AlwaysBuilds (c : BuildContext) (around : Surroundings) (w : LoadState) (a : Artifact) : Prop :=
  ∀ s w', c.ComesTo around w s w' → ¬ c.FailsAt around s w' ∧
    ∃ s' w'', Resolution.LoadSteps (c.load around) (s, w') (s', w'') ∧ s'.pending = [] ∧ Artifact.ofModules c.roots s'.records = a

/-- In some order a URL is asked for. -/
def Asks (c : BuildContext) (around : Surroundings) (w : LoadState) (url : Url) : Prop :=
  ∃ s w', c.ComesTo around w s w' ∧ url ∈ s.pending

/-- In some order a module arrives under a specifier that it was not asked for under and that nothing has
claimed before. -/
def Claims (c : BuildContext) (around : Surroundings) (w : LoadState) (m : SourceModule) : Prop :=
  ∃ s w' url, c.ComesTo around w s w' ∧ url ∈ s.pending ∧ (c.load around url w').1 = .ok (.source m) ∧
    m.specifier ≠ url.text ∧ m.specifier ∉ s.seen

/-- Whoever could claim a specifier brings the same module under it: a module that claims a specifier is also
what the URL of that specifier brings, if it is asked for, and any other module that claims it. -/
structure Uncontested (c : BuildContext) (around : Surroundings) (w : LoadState) : Prop where
  asked : ∀ m url, c.Claims around w m → c.Asks around w url → url.text = m.specifier →
    (c.load around url w).1 = .ok (.source m)
  claimed : ∀ m m', c.Claims around w m → c.Claims around w m' → m.specifier = m'.specifier → m = m'

/-! ## One outcome for each URL -/

/-- What the load of a URL brings in a build that began with `w`. -/
def outcome (c : BuildContext) (around : Surroundings) (w : LoadState) (url : Url) : Built Loaded :=
  (c.load around url w).1

/-- The entries that are still to be looked up are those with which the build began. -/
def Undisturbed (c : BuildContext) (around : Surroundings) (w : LoadState) (s : Resolution) (w' : LoadState) : Prop :=
  ∀ t, (t ∉ s.seen ∨ t ∈ s.pending.map Url.text) → c.found? around t w' = c.found? around t w

/-- The load of a pending URL brings what it would have brought at the beginning. -/
theorem Undisturbed.load_fst {url : Url} (h : c.Undisturbed around w s w') (hurl : url ∈ s.pending) :
    (c.load around url w').1 = c.outcome around w url :=
  load_fst_congr (h url.text (Or.inr (List.mem_map_of_mem hurl)))

variable (hsteady : around.remote.health.IsSteady)
include hsteady

/-- A step leaves the entries that are still to be looked up. -/
theorem Undisturbed.step {roots : List String} {url : Url} {loaded : Loaded} {w'' : LoadState}
    (hlinked : Resolution.Linked roots s.records [] s) (h : c.Undisturbed around w s w') (hurl : url ∈ s.pending)
    (hload : c.load around url w' = (.ok loaded, w''))
    (harrive : { s with pending := s.pending.erase url }.arrive url loaded = .ok s') :
    c.Undisturbed around w s' w'' := by
  have harrival := Resolution.arrive_eq_ok_iff.mp harrive
  have hurlSeen : url.text ∈ s.seen := (hlinked.seen _).mpr (Or.inr (Or.inl (List.mem_map_of_mem hurl)))
  intro t ht
  -- What is looked up later is looked up under another specifier and could have been looked up before.
  have hbefore : t ≠ url.text ∧ (t ∉ s.seen ∨ t ∈ s.pending.map Url.text) := by
    rcases ht with hnot | hpending
    · have hnotBefore : t ∉ s.seen := fun hseen => hnot (harrival.seen_subset hseen)
      refine ⟨?_, Or.inl hnotBefore⟩
      rintro rfl
      exact hnotBefore hurlSeen
    · obtain ⟨u, hu, rfl⟩ := List.mem_map.mp hpending
      rcases harrival.mem_pending hu with hold | ⟨hnew, -⟩
      · refine ⟨fun htext => ?_, Or.inr (List.mem_map_of_mem (List.mem_of_mem_erase hold))⟩
        have hclaim : (url.text :: (s.pending.erase url).map Url.text).Nodup :=
          (List.nodup_append.mp (hlinked.pick hurl).nodup).1
        exact (List.nodup_cons.mp hclaim).1 (List.mem_map.mpr ⟨u, hold, htext⟩)
      · refine ⟨?_, Or.inl hnew⟩
        intro htext
        exact hnew (by rw [htext]; exact hurlSeen)
  rw [found?_load hsteady hbefore.1 hload, h t hbefore.2]

/-- What a build goes on to is a run over the outcomes with which it began. -/
theorem Undisturbed.steps {roots : List String} {w'' : LoadState} (h : c.Undisturbed around w s w')
    (hlinked : Resolution.Linked roots s.records [] s) (hsteps : Resolution.LoadSteps (c.load around) (s, w') (s', w'')) :
    Resolution.Steps (Resolution.Brought (c.outcome around w)) s s' ∧ c.Undisturbed around w s' w'' := by
  generalize hp : (s', w'') = p at hsteps
  induction hsteps generalizing s' w'' with
  | refl =>
    cases hp
    exact ⟨.refl, h⟩
  | tail hbefore hstep ih =>
    cases hstep with
    | arrived hpending hload harrive =>
      cases hp
      obtain ⟨hrun, hsame⟩ := ih rfl
      have houtcome := hsame.load_fst hpending
      rw [hload] at houtcome
      exact ⟨hrun.tail ⟨hpending, houtcome.symm, harrive⟩,
        hsame.step hsteady (hlinked.steps hrun) hpending hload harrive⟩

/-- A build is a run over the outcomes with which it began. -/
theorem steps_of_comesTo (h : c.ComesTo around w s w') :
    ∃ start, Resolution.ofRoots c.roots = .ok start ∧
      Resolution.Steps (Resolution.Brought (c.outcome around w)) start s ∧ c.Undisturbed around w s w' := by
  obtain ⟨start, hstart, hsteps⟩ := h
  have hbegin : c.Undisturbed around w start w := fun _ _ => rfl
  exact ⟨start, hstart, hbegin.steps hsteady (Resolution.linked_ofRoots hstart).1 hsteps⟩

/-- A run over the outcomes with which a build began is a way on for the build. -/
theorem exists_loadSteps (h : c.ComesTo around w s w')
    (hsteps : Resolution.Steps (Resolution.Brought (c.outcome around w)) s s') :
    ∃ w'', Resolution.LoadSteps (c.load around) (s, w') (s', w'') := by
  induction hsteps with
  | refl => exact ⟨w', .refl⟩
  | @tail s₁ s₂ _ hstep ih =>
    obtain ⟨w₁, hrest⟩ := ih
    obtain @⟨url, loaded, _, hpending, hbrings, harrive⟩ := hstep
    obtain ⟨start, hstart, hbefore⟩ := h
    obtain ⟨-, -, -, hsame⟩ := steps_of_comesTo hsteady ⟨start, hstart, hbefore.trans hrest⟩
    have hload := hsame.load_fst hpending
    rw [hbrings] at hload
    cases hresult : c.load around url w₁ with
    | mk result w₂ =>
      rw [hresult] at hload
      obtain rfl : result = .ok loaded := hload
      exact ⟨w₂, hrest.tail (.arrived hpending hresult harrive)⟩

/-! ## What builds and runs share -/

/-- A run over the outcomes is a build that has come so far. -/
theorem exists_comesTo (hstart : Resolution.ofRoots c.roots = .ok start)
    (hsteps : Resolution.Steps (Resolution.Brought (c.outcome around w)) start s) :
    ∃ w', c.ComesTo around w s w' := by
  obtain ⟨w', h⟩ := exists_loadSteps hsteady (c := c) (w := w) ⟨start, hstart, .refl⟩ hsteps
  exact ⟨w', start, hstart, h⟩

/-- URLs are asked for in builds as in runs. -/
theorem asks_iff (hstart : Resolution.ofRoots c.roots = .ok start) {url : Url} :
    c.Asks around w url ↔ Resolution.Asked (Resolution.Brought (c.outcome around w)) start url := by
  constructor
  · rintro ⟨s, w', hcomes, hpending⟩
    obtain ⟨start', hstart', hsteps, -⟩ := steps_of_comesTo hsteady hcomes
    rw [hstart] at hstart'
    cases hstart'
    exact ⟨s, hsteps, hpending⟩
  · rintro ⟨s, hsteps, hpending⟩
    obtain ⟨w', hcomes⟩ := exists_comesTo hsteady hstart hsteps
    exact ⟨s, w', hcomes, hpending⟩

/-- Modules claim specifiers in builds as in runs. -/
theorem claims_iff (hstart : Resolution.ofRoots c.roots = .ok start) {m : SourceModule} :
    c.Claims around w m ↔ Resolution.Claimed (Resolution.Brought (c.outcome around w)) start m := by
  constructor
  · rintro ⟨s, w', url, hcomes, hpending, hload, hother, hnew⟩
    obtain ⟨start', hstart', hsteps, hsame⟩ := steps_of_comesTo hsteady hcomes
    rw [hstart] at hstart'
    cases hstart'
    exact ⟨s, url, hsteps, hpending, (hsame.load_fst hpending).symm.trans hload, hother, hnew⟩
  · rintro ⟨s, url, hsteps, hpending, hload, hother, hnew⟩
    obtain ⟨w', hcomes⟩ := exists_comesTo hsteady hstart hsteps
    obtain ⟨-, -, -, hsame⟩ := steps_of_comesTo hsteady hcomes
    exact ⟨s, w', url, hcomes, hpending, (hsame.load_fst hpending).trans hload, hother, hnew⟩

/-- Builds fail as runs do. -/
theorem failsAt_iff (h : c.ComesTo around w s w') :
    c.FailsAt around s w' ↔ Resolution.Fails (c.outcome around w) s := by
  obtain ⟨-, -, -, hsame⟩ := steps_of_comesTo hsteady h
  constructor
  · rintro ⟨url, hpending, hfails⟩
    rw [hsame.load_fst hpending] at hfails
    exact ⟨url, hpending, hfails⟩
  · rintro ⟨url, hpending, hfails⟩
    rw [← hsame.load_fst hpending] at hfails
    exact ⟨url, hpending, hfails⟩

/-- Specifiers are contested in builds as in runs. -/
theorem uncontested_iff (hstart : Resolution.ofRoots c.roots = .ok start) :
    c.Uncontested around w ↔ Resolution.Uncontested (c.outcome around w) start := by
  constructor
  · rintro ⟨hasked, hclaimed⟩
    refine ⟨fun m v hm hv => hasked m v ?_ ?_, fun m m' hm hm' => hclaimed m m' ?_ ?_⟩
    · exact (claims_iff hsteady hstart).mpr hm
    · exact (asks_iff hsteady hstart).mpr hv
    · exact (claims_iff hsteady hstart).mpr hm
    · exact (claims_iff hsteady hstart).mpr hm'
  · rintro ⟨hasked, hclaimed⟩
    refine ⟨fun m v hm hv => hasked m v ?_ ?_, fun m m' hm hm' => hclaimed m m' ?_ ?_⟩
    · exact (claims_iff hsteady hstart).mp hm
    · exact (asks_iff hsteady hstart).mp hv
    · exact (claims_iff hsteady hstart).mp hm
    · exact (claims_iff hsteady hstart).mp hm'

/-- Builds always end in an artifact when all runs do. -/
theorem alwaysBuilds_iff_allEndIn (hstart : Resolution.ofRoots c.roots = .ok start) :
    c.AlwaysBuilds around w a ↔ Resolution.AllEndIn c.roots (c.outcome around w) start a := by
  constructor
  · intro h s hsteps
    obtain ⟨w', hcomes⟩ := exists_comesTo hsteady hstart hsteps
    obtain ⟨hfails, s', w'', hrest, hdone, ha⟩ := h s w' hcomes
    obtain ⟨-, -, -, hsame⟩ := steps_of_comesTo hsteady hcomes
    have hlinked := (Resolution.linked_ofRoots hstart).1.steps hsteps
    exact ⟨fun hf => hfails ((failsAt_iff hsteady hcomes).mpr hf), s', (hsame.steps hsteady hlinked hrest).1,
      hdone, ha⟩
  · intro h s w' hcomes
    obtain ⟨start', hstart', hsteps, -⟩ := steps_of_comesTo hsteady hcomes
    rw [hstart] at hstart'
    cases hstart'
    obtain ⟨hfails, s', hrest, hdone, ha⟩ := h s hsteps
    obtain ⟨w'', hrest'⟩ := exists_loadSteps hsteady hcomes hrest
    exact ⟨fun hf => hfails ((failsAt_iff hsteady hcomes).mp hf), s', w'', hrest', hdone, ha⟩

omit hsteady

/-! ## Builds that ask for finitely many URLs -/

/-- Whether all that a module at a URL names is among some URLs. -/
def namesOnly (urls : List Url) (m : SourceModule) (base : Url) : Bool :=
  match dependencies m base with
  | .ok named => named.all urls.contains
  | .error _ => true

/-- Whether some URLs have all roots of a build among them and all that their modules name. -/
def isCoveredBy (c : BuildContext) (around : Surroundings) (w : LoadState) (urls : List Url) : Bool :=
  (c.roots.all fun r => (Url.parse r).toOption.all urls.contains) &&
    urls.all fun url =>
      match c.outcome around w url with
      | .ok (.source m) => namesOnly urls m url && (Url.parse m.specifier).toOption.all (namesOnly urls m)
      | _ => true

/-- **A build asks for nothing but the URLs that cover it.** -/
theorem mem_of_asks (hsteady : around.remote.health.IsSteady) {urls : List Url}
    (hcovered : c.isCoveredBy around w urls = true) {url : Url} (h : c.Asks around w url) : url ∈ urls := by
  obtain ⟨s, w', hcomes, hpending⟩ := h
  obtain ⟨start, hstart, hsteps, -⟩ := steps_of_comesTo hsteady hcomes
  obtain ⟨hroots, hnames⟩ := Bool.and_eq_true_iff.mp hcovered
  rw [List.all_eq_true] at hroots hnames
  have hnamed : ∀ {m : SourceModule} {base u : Url} {named : List Url}, namesOnly urls m base = true →
      dependencies m base = .ok named → u ∈ named → u ∈ urls := by
    intro m base u named hm hdeps hu
    rw [namesOnly, hdeps] at hm
    simpa using List.all_eq_true.mp hm u hu
  suffices ∀ u ∈ s.pending, u ∈ urls from this url hpending
  clear hpending hcomes
  induction hsteps with
  | refl =>
    intro u hu
    obtain ⟨asked, rfl, hof, -⟩ := Resolution.ofRoots_eq_ok hstart
    obtain ⟨new, heq, hsub, -⟩ := Resolution.exists_foldl_request asked Resolution.start
    rw [heq] at hu
    obtain ⟨r, hr, hparse⟩ := hof u (hsub (by simpa [Resolution.start] using hu))
    have hin := hroots r hr
    rw [hparse] at hin
    simpa [Except.toOption] using hin
  | tail _ hstep ih =>
    obtain @⟨arrived, loaded, _, hpending, hload, harrive⟩ := hstep
    intro u hu
    rcases (Resolution.arrive_eq_ok_iff.mp harrive).mem_pending hu with hold | ⟨-, m, base, named, rfl, hbase, hdeps, hin⟩
    · exact ih u (List.mem_of_mem_erase hold)
    · have hm := hnames arrived (ih arrived hpending)
      simp only [hload, Bool.and_eq_true] at hm
      rcases hbase with rfl | hparse
      · exact hnamed hm.1 hdeps hin
      · rw [hparse] at hm
        exact hnamed hm.2 hdeps hin

/-! ## The order of loading -/

/-- **The order of loading shows exactly when a specifier is contested.** When a build succeeds in one order, it
succeeds with the same artifact in every order, and fails in none, exactly if whoever could claim a specifier
brings the same module under it. -/
theorem alwaysBuilds_iff_uncontested (hsteady : around.remote.health.IsSteady)
    (hread : ∀ url, c.Asks around w url → Url.parse url.text = .ok url)
    (ha : c.CanBuild around w a) : c.AlwaysBuilds around w a ↔ c.Uncontested around w := by
  obtain ⟨start, final, w', hstart, hloads, hdone, rfl⟩ := ha
  obtain ⟨start', hstart', hsteps, -⟩ := steps_of_comesTo hsteady ⟨start, hstart, hloads⟩
  rw [hstart] at hstart'
  cases hstart'
  have hended : Resolution.Ended c.roots (Resolution.Brought (c.outcome around w)) start final := ⟨hstart, hsteps, hdone⟩
  rw [alwaysBuilds_iff_allEndIn hsteady hstart, uncontested_iff hsteady hstart]
  exact hended.allEndIn_iff fun url hurl => hread url ((asks_iff hsteady hstart).mpr hurl)

/-- Files of a framework that imports a script of another app, and a network that has every module. -/
def otherApp : Surroundings where
  readFile path := if path = "framework/main.tsx" then .ok "import \"https://h/x.ts\";" else .error .notFound
  remote := ⟨fun url => .answered (.ok ⟨url, [], ""⟩), .all .sound, 0⟩

/-- Settings under which elements need no module of the network. -/
def plainConfig : BuildConfig := { BuildConfig.default with platformHost := "h", jsxImportSource := "node:r" }

/-- What the build of `otherApp` asks for. -/
def otherAppUrls : List Url :=
  ["file:///framework/main.tsx", "https://h/x.ts", "node:r/jsx-runtime"].filterMap fun t => (Url.parse t).toOption

/-- A build in which the script of another app claims the name that it is bundled under. -/
theorem alwaysBuilds_iff_uncontested_otherApp :
    ∃ c a, ofRequest plainConfig .default .empty = .ok c ∧ c.CanBuild otherApp .initial a ∧
      (c.AlwaysBuilds otherApp .initial a ↔ c.Uncontested otherApp .initial) := by
  have hchecked : (match ofRequest plainConfig .default .empty with
      | .ok c => (c.resolve otherApp .initial).1.toOption.isSome && c.isCoveredBy otherApp .initial otherAppUrls
      | .error _ => false) = true := by decide +kernel
  have hread : ∀ url ∈ otherAppUrls, Url.parse url.text = .ok url := by decide +kernel
  cases hc : ofRequest plainConfig .default .empty with
  | error e => simp [hc] at hchecked
  | ok c =>
    simp only [hc, Bool.and_eq_true] at hchecked
    obtain ⟨hsome, hcovered⟩ := hchecked
    have hsteady : otherApp.remote.health.IsSteady := TableHealth.isSteady_all .sound
    cases hresult : c.resolve otherApp .initial with
    | mk result w' =>
      cases result with
      | error e => simp [hresult, Except.toOption] at hsome
      | ok a =>
        have ha := canBuild_of_resolve hresult
        exact ⟨c, a, rfl, ha, alwaysBuilds_iff_uncontested hsteady
          (fun url hurl => hread url (mem_of_asks hsteady hcovered hurl)) ha⟩

/-! ## A contested specifier -/

/-- Lets the loads of some specifiers end one after another. -/
def follow? (c : BuildContext) (around : Surroundings) :
    List String → Resolution → LoadState → Option (Resolution × LoadState)
  | [], s, w => some (s, w)
  | t :: r, s, w => do
    let url ← s.pending.find? fun url => url.text = t
    match c.load around url w with
    | (.error _, _) => none
    | (.ok loaded, w) =>
      match { s with pending := s.pending.erase url }.arrive url loaded with
      | .error _ => none
      | .ok s => follow? c around r s w

/-- Following specifiers is one order of loading. -/
theorem loadSteps_of_follow? {specifiers : List String} (h : c.follow? around specifiers s w = some (s', w')) :
    Resolution.LoadSteps (c.load around) (s, w) (s', w') := by
  induction specifiers generalizing s w with
  | nil =>
    cases h
    exact .refl
  | cons t r ih =>
    cases hurl : s.pending.find? fun url => url.text = t with
    | none => simp [follow?, hurl] at h
    | some url =>
      cases hload : c.load around url w with
      | mk result w₁ =>
      cases result with
      | error e => simp [follow?, hurl, hload] at h
      | ok loaded =>
        cases harrive : { s with pending := s.pending.erase url }.arrive url loaded with
        | error e => simp [follow?, hurl, hload, harrive] at h
        | ok s₁ =>
          have hrest := ih (by simpa [follow?, hurl, hload, harrive] using h)
          exact .head (.arrived (List.mem_of_find?_eq_some hurl) hload harrive) hrest

/-- A network with two scripts of another app, of which the second asks for the first by the name that it is
bundled under. There is nothing under that name. -/
def contestedApp : Surroundings where
  readFile path :=
    if path = "framework/main.tsx" then .ok "import \"https://h/x.ts\";\nimport \"https://h/y.ts\";"
    else .error .notFound
  remote := {
    fetch := fun url =>
      if url = "https://h/x.ts" then .answered (.ok ⟨url, [], ""⟩)
      else if url = "https://h/y.ts" then .answered (.ok ⟨url, [], "import \"./x.tsx\";"⟩)
      else .answered (.error (.status url 404))
    health := .all .sound
    calendar := 0 }

/-- Whether a pending load of a specifier fails. -/
def failsOn (c : BuildContext) (around : Surroundings) (t : String) (s : Resolution) (w : LoadState) : Bool :=
  s.pending.any fun url => url.text = t && !(c.load around url w).1.toOption.isSome

/-- **One build that succeeds in one order and fails in another.** -/
theorem order_shows_contestedApp :
    ∃ c a, ofRequest plainConfig .default .empty = .ok c ∧ c.CanBuild contestedApp .initial a ∧
      ∃ s w', c.ComesTo contestedApp .initial s w' ∧ c.FailsAt contestedApp s w' := by
  have hchecked : (match ofRequest plainConfig .default .empty with
      | .ok c => (c.resolve contestedApp .initial).1.toOption.isSome &&
        match Resolution.ofRoots c.roots with
        | .ok start =>
          (c.follow? contestedApp ["file:///framework/main.tsx", "https://h/y.ts"] start .initial).any
            fun (s, w) => c.failsOn contestedApp "https://h/x.tsx" s w
        | .error _ => false
      | .error _ => false) = true := by decide +kernel
  cases hc : ofRequest plainConfig .default .empty with
  | error e => simp [hc] at hchecked
  | ok c =>
    simp only [hc, Bool.and_eq_true] at hchecked
    obtain ⟨hsome, hfails⟩ := hchecked
    cases hresult : c.resolve contestedApp .initial with
    | mk result w' =>
    cases result with
    | error e => simp [hresult, Except.toOption] at hsome
    | ok a =>
      cases hstart : Resolution.ofRoots c.roots with
      | error e => simp [hstart] at hfails
      | ok start =>
        rw [hstart] at hfails
        obtain ⟨⟨s, w⟩, hfollow, hat⟩ := (Option.any_eq_true _ _).mp hfails
        obtain ⟨url, hpending, hload⟩ := List.any_eq_true.mp hat
        refine ⟨c, a, rfl, canBuild_of_resolve hresult, s, w, ⟨start, hstart, loadSteps_of_follow? hfollow⟩,
          url, hpending, Or.inl ?_⟩
        cases hfirst : (c.load contestedApp url w).1 with
        | error e => exact ⟨e, rfl⟩
        | ok loaded => simp [hfirst, Except.toOption] at hload

end BuildContext

end AppBundler
