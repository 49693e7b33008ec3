import AppBundler.Proofs.Bundle.Closure
import AppBundler.Proofs.Bundle.Lookup
import AppBundler.Proofs.Bundle.Scripts
/-!
# The graph of a build

What the invariant of finished graphs says about the artifact of a build: it is sorted, holds a record for
everything that is named in it, and holds nothing that was not reached.
-/

namespace AppBundler

/-! ## Closed graphs -/

/-- Whether an artifact has a record of a specifier. -/
def Artifact.Has (a : Artifact) (specifier : String) : Prop := ∃ g ∈ a.modules, g.specifier = specifier

/-- An artifact whose records are sorted, without two of one specifier, and which holds a record of all that its
roots, its redirects and its modules name and of nothing that these do not lead to. -/
structure Artifact.IsClosedGraph (a : Artifact) : Prop where
  /-- Each record stands before those of greater specifiers, so no two share one. -/
  sorted : a.modules.Pairwise fun g g' => g.specifier < g'.specifier
  /-- A root has a record under the URL that it is read as. -/
  roots : ∀ r ∈ a.roots, ∃ u, Url.parse r = .ok u ∧ a.Has u.text
  /-- The base of a module is the URL at which it was reached. -/
  dependencies : ∀ m, .module m ∈ a.modules → ∃ base urls, Reached a.roots a.modules m.specifier base ∧
    (base.text = m.specifier ∨ Url.parse m.specifier = .ok base) ∧
    AppBundler.dependencies m base = .ok urls ∧ ∀ u ∈ urls, a.Has u.text
  redirects : ∀ r t, .redirect r t ∈ a.modules → a.Has t
  reached : ∀ g ∈ a.modules, ∃ u, Reached a.roots a.modules g.specifier u

/-- A specifier is reached at a URL of that text, or at the URL that it is read as. -/
theorem Reached.text_or_parse {roots : List String} {records : List GraphModule} {t : String} {u : Url}
    (h : Reached roots records t u) : u.text = t ∨ Url.parse t = .ok u := by
  cases h with
  | root => exact Or.inl rfl
  | redirect _ _ hv => exact Or.inr hv
  | dependency => exact Or.inl rfl

/-- A finished graph that is linked gives a closed artifact. -/
theorem Resolution.Linked.isClosedGraph {roots : List String} {s : Resolution}
    (h : Resolution.Linked roots s.records [] s) (hdone : s.pending = [])
    (hroots : ∀ r ∈ roots, ∃ u, Url.parse r = .ok u ∧ u.text ∈ s.seen) :
    (Artifact.ofModules roots s.records).IsClosedGraph := by
  have hnodup : (s.records.map GraphModule.specifier).Nodup := by simpa [hdone] using h.nodup
  have hsub : s.records ⊆ (Artifact.ofModules roots s.records).modules := fun _ hg => Artifact.mem_ofModules.mpr hg
  have hhas : ∀ t ∈ s.seen, (Artifact.ofModules roots s.records).Has t := by
    intro t ht
    obtain ⟨g, hg, rfl⟩ := List.mem_map.mp (by simpa [hdone] using (h.seen t).mp ht :
      t ∈ s.records.map GraphModule.specifier)
    exact ⟨g, hsub hg, rfl⟩
  refine ⟨Artifact.isSorted_ofModules hnodup, ?_, ?_, ?_, ?_⟩
  · intro r hr
    obtain ⟨u, hu, hseen⟩ := hroots r hr
    exact ⟨u, hu, hhas _ hseen⟩
  · intro m hm
    obtain ⟨base, urls, hbase, hdeps, hnamed⟩ := (h.supported _ (Artifact.mem_ofModules.mp hm)).named m rfl
    exact ⟨base, urls, hbase.mono hsub, hbase.text_or_parse, hdeps, fun u hu => hhas _ (hnamed u hu)⟩
  · intro r t hg
    exact hhas t ((h.supported _ (Artifact.mem_ofModules.mp hg)).target r t rfl)
  · intro g hg
    obtain ⟨u, hu⟩ := (h.supported g (Artifact.mem_ofModules.mp hg)).reached
    exact ⟨u, hu.mono hsub⟩

namespace BuildContext

variable {config : BuildConfig} {cache : ModuleCache} {request : BuildRequest} {c : BuildContext}
variable {around : Surroundings} {a : Artifact}

/-! ## Builds -/

/-- The artifact of a build is a closed graph, whatever the order in which its loads ended. -/
theorem Completes.isClosedGraph (h : c.Completes around a) : a.IsClosedGraph := by
  obtain ⟨start, s, hstart, hsteps, hdone, rfl⟩ := h
  obtain ⟨hlinked, hroots⟩ := Resolution.linked_ofRoots hstart
  refine (hlinked.steps hsteps).isClosedGraph hdone fun r hr => ?_
  obtain ⟨u, hu, hseen⟩ := hroots r hr
  exact ⟨u, hu, hsteps.seen_subset hseen⟩

/-- **The artifact of a build is a closed graph**, whatever the order in which its loads ended. With the usual
base and an entry point that needs no other name, every root has a record under its own text. -/
theorem closed_graph_of_any_order (hc : ofRequest config cache request = .ok c) (ha : c.Completes around a) :
    a.IsClosedGraph ∧
      (request.baseUrl = none → FileName.sanitize config.frameworkEntry = config.frameworkEntry →
        ∀ r ∈ a.roots, a.Has r) := by
  refine ⟨ha.isClosedGraph, fun hbase hentry r hr => ?_⟩
  obtain ⟨u, hu, hhas⟩ := ha.isClosedGraph.roots r hr
  obtain ⟨start, s, -, -, -, rfl⟩ := ha
  obtain ⟨v, hv, rfl⟩ := parse_root hc hbase hentry hr
  rw [hv] at hu
  cases hu
  exact hhas

/-- Files of a framework that has nothing but its entry point, on a machine without a network. -/
def onlyEntry (content : String) : Surroundings :=
  ⟨fun path => if path = "framework/main.tsx" then .ok content else .error .notFound,
    ⟨Fetcher.offline, .all .sound, 0⟩⟩

/-- An empty app under a framework that names a module of the program that runs it. -/
theorem closed_graph_of_empty_app :
    ∃ c a, ofRequest .default .default .empty = .ok c ∧
      c.Completes (onlyEntry "import \"node:fs\";") a ∧ a.IsClosedGraph ∧
      ∀ r ∈ a.roots, a.Has r := by
  have hsome : (buildArtifact .default .default (onlyEntry "import \"node:fs\";") .empty
      .initial).1.toOption.isSome = true := by decide +kernel
  cases hbuild : buildArtifact .default .default (onlyEntry "import \"node:fs\";") .empty
      .initial with
  | mk result w =>
    rw [hbuild] at hsome
    cases result with
    | error e => cases hsome
    | ok a =>
      obtain ⟨c, hc, hcan⟩ := exists_canBuild_of_buildArtifact hbuild
      have ha := hcan.completes
      obtain ⟨hgraph, hroots⟩ := closed_graph_of_any_order hc ha
      exact ⟨c, a, hc, ha, hgraph, hroots rfl (by decide +kernel)⟩

end BuildContext

end AppBundler
