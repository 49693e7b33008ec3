import Mathlib.Data.List.Nodup
import Mathlib.Data.Prod.Lex
import Mathlib.Data.String.Basic
import AppBundler.App.Validation
import AppBundler.Proofs.Bundle.Scripts
/-!
# The order in which scripts are listed

The scripts of an app are bundled in the order of the editor, by number and file name, however they are listed.
Only scripts with one number and one file name keep the order in which they are listed. A build refuses them, and
says the same of them in either order, since all that it says of scripts before it knows their names to differ is
in their file names. To the schemas the order of two such scripts matters: the later one is the one described.
-/

namespace AppBundler

/-! ## The order of the editor -/

/-- The place of a script in the editor. -/
def Script.place (s : Script) : Int ×ₗ String := toLex (s.order, s.filename)

theorem Script.atOrBefore_iff {s t : Script} : s.atOrBefore t = true ↔ s.place ≤ t.place := by
  simp [Script.atOrBefore, place, Prod.Lex.toLex_le_toLex]

theorem Script.place_eq_iff {s t : Script} : s.place = t.place ↔ s.order = t.order ∧ s.filename = t.filename := by
  simp [place]

namespace App

variable {a b : App}

/-- The bundled scripts stand in the order of their places. -/
theorem pairwise_bundled (a : App) : a.bundled.Pairwise fun s t => s.place ≤ t.place := by
  have hsorted : a.bundled.Pairwise fun s t => s.atOrBefore t = true := by
    refine List.pairwise_mergeSort ?_ ?_ _
    · intro s t u hst htu
      rw [Script.atOrBefore_iff] at hst htu ⊢
      exact hst.trans htu
    · intro s t
      rw [Bool.or_eq_true, Script.atOrBefore_iff, Script.atOrBefore_iff]
      exact le_total _ _
  exact hsorted.imp Script.atOrBefore_iff.mp

/-- The same scripts are bundled however they are listed. -/
theorem bundled_perm (h : b.scripts.Perm a.scripts) : b.bundled.Perm a.bundled :=
  (List.mergeSort_perm _ _).trans ((h.filter _).trans (List.mergeSort_perm _ _).symm)

/-- **What scripts with one place agree in** is bundled in one order, however the scripts are listed. -/
theorem map_bundled_eq {α : Type} {f : Script → α} (h : b.scripts.Perm a.scripts)
    (hties : ∀ s ∈ a.bundled, ∀ t ∈ a.bundled, s.place = t.place → f s = f t) :
    b.bundled.map f = a.bundled.map f := by
  -- With their places beside them the values are sorted, and those with one place are the same.
  have hsorted : ∀ c : App, (c.bundled.map fun s => (s.place, f s)).Pairwise fun x y => x.1 ≤ y.1 := fun c =>
    List.pairwise_map.mpr c.pairwise_bundled
  have hplaced : (b.bundled.map fun s => (s.place, f s)) = a.bundled.map fun s => (s.place, f s) := by
    refine ((bundled_perm h).map _).eq_of_pairwise ?_ (hsorted b) (hsorted a)
    intro x y hx hy hxy hyx
    obtain ⟨s, hs, rfl⟩ := List.mem_map.mp hx
    obtain ⟨t, ht, rfl⟩ := List.mem_map.mp hy
    have hplace : s.place = t.place := le_antisymm hxy hyx
    rw [hplace, hties s ((bundled_perm h).mem_iff.mp hs) t ht hplace]
  have hvalues := congrArg (List.map Prod.snd) hplaced
  rwa [List.map_map, List.map_map] at hvalues

/-- The file names of the bundled scripts come in one order. -/
theorem filenames_bundled_eq (h : b.scripts.Perm a.scripts) :
    b.bundled.map Script.filename = a.bundled.map Script.filename :=
  map_bundled_eq h fun _ _ _ _ hplace => (Script.place_eq_iff.mp hplace).2

/-- The bundled scripts come in one order when their file names differ. -/
theorem bundled_eq (h : b.scripts.Perm a.scripts) (hnames : (a.bundled.map Script.filename).Nodup) :
    b.bundled = a.bundled := by
  have hall : (b.bundled.map fun s => s) = a.bundled.map fun s => s := map_bundled_eq h fun s hs t ht hplace =>
    List.inj_on_of_nodup_map hnames hs ht (Script.place_eq_iff.mp hplace).2
  rwa [List.map_id', List.map_id'] at hall

/-! ## Schemas -/

/-- The schemas of scripts are told by their file names and their codes. -/
theorem schemasFrom_congr {found : List (String × ScriptSchema)} {scripts scripts' : List Script}
    (h : (scripts'.map fun s => (s.filename, s.code)) = scripts.map fun s => (s.filename, s.code)) :
    schemasFrom found scripts' = schemasFrom found scripts := by
  induction scripts generalizing found scripts' with
  | nil => rw [List.map_eq_nil_iff.mp h]
  | cons s scripts ih =>
    obtain ⟨s', rest, rfl, hfirst, hrest⟩ := List.map_eq_cons_iff.mp h
    obtain ⟨hname, hcode⟩ := Prod.mk.inj hfirst
    rw [schemasFrom, schemasFrom, hname, hcode]
    cases ScriptSchema.ofSource s.code true with
    | error e => rfl
    | ok schema => exact ih hrest

end App

/-! ## Builds -/

namespace BuildContext

variable {request : BuildRequest}

/-- Why scripts cannot be named is told by their file names. -/
theorem addScripts_eq_error {n : Namespaces} {scripts scripts' : List Script} {named : List (String × String)}
    {done done' : List BundledScript} {e : BuildError}
    (hnames : scripts'.map Script.filename = scripts.map Script.filename)
    (h : addScripts n named done scripts = .error e) : addScripts n named done' scripts' = .error e := by
  induction scripts generalizing named done done' scripts' with
  | nil => cases h
  | cons s scripts ih =>
    obtain ⟨s', rest, rfl, hfirst, hrest⟩ := List.map_eq_cons_iff.mp hnames
    rw [addScripts] at h ⊢
    rw [hfirst]
    cases hfound : named.find? fun given => given.1 = FileName.sanitize s.filename with
    | some given => simpa [hfound] using h
    | none =>
      cases hurl : n.scriptUrl (FileName.sanitize s.filename) with
      | error e => simpa [hfound, hurl, bind, Except.bind] using h
      | ok url =>
        simp only [hfound, hurl, bind, Except.bind] at h ⊢
        exact ih hrest h

/-- **Scripts are named alike**, or fail alike, however they are listed. -/
theorem addScripts_bundled_eq {n : Namespaces} {a b : App} (h : b.scripts.Perm a.scripts) :
    addScripts n [] [] b.bundled = addScripts n [] [] a.bundled := by
  cases hnamed : addScripts n [] [] a.bundled with
  | error e => exact addScripts_eq_error (App.filenames_bundled_eq h) hnamed
  | ok result =>
    -- The scripts have been named, so no two of them have one file name.
    obtain ⟨-, -, -, hsanitized, -⟩ := addScripts_eq_ok hnamed
    have hnames : (a.bundled.map Script.filename).Nodup := by
      refine .of_map FileName.sanitize ?_
      rwa [List.map_map]
    rw [App.bundled_eq h hnames, hnamed]

/-- **The order in which scripts are listed is irrelevant** to the set-up of a build, its errors included, and to
the schemas of an app as long as no two of its bundled scripts have one number, one file name and different codes. -/
theorem ofRequest_eq_of_perm {scripts : List Script} (h : scripts.Perm request.app.scripts) :
    (∀ config cache, ofRequest config cache { request with app := { request.app with scripts := scripts } } =
      ofRequest config cache request) ∧
    ((∀ s ∈ request.app.bundled, ∀ t ∈ request.app.bundled, s.order = t.order → s.filename = t.filename →
        s.code = t.code) →
      { request.app with scripts := scripts }.schemas = request.app.schemas) := by
  refine ⟨fun config cache => ?_, fun hties => ?_⟩
  · simp only [ofRequest, addScripts_bundled_eq (a := request.app) (b := { request.app with scripts := scripts }) h]
  · refine App.schemasFrom_congr (App.map_bundled_eq h fun s hs t ht hplace => ?_)
    obtain ⟨horder, hname⟩ := Script.place_eq_iff.mp hplace
    rw [hname, hties s hs t ht horder hname]

/-- Two scripts with one number under names that differ are bundled alike when they are listed the other way
round. -/
theorem ofRequest_eq_of_perm_swap :
    let main : Script := ⟨"s1", "main.ts", "1;", 0, ""⟩
    let util : Script := ⟨"s2", "util.ts", "2;", 0, ""⟩
    let request (scripts : List Script) : BuildRequest := ⟨⟨"app-1", "demo", none, scripts⟩, "deno", "1", none⟩
    [util, main].Perm [main, util] ∧
      ofRequest .default .default (request [util, main]) = ofRequest .default .default (request [main, util]) ∧
      (request [util, main]).app.schemas = (request [main, util]).app.schemas := by
  intro main util request
  have hperm : [util, main].Perm [main, util] := .swap _ _ []
  have hsame := @ofRequest_eq_of_perm (request [main, util]) _ hperm
  refine ⟨hperm, hsame.1 .default .default, hsame.2 fun s hs t ht _ hname => ?_⟩
  have hnames : ((request [main, util]).app.scripts.map Script.filename).Nodup := by decide
  have hmem : ∀ u ∈ (request [main, util]).app.bundled, u ∈ (request [main, util]).app.scripts := fun u hu =>
    List.mem_of_mem_filter (List.mem_mergeSort.mp hu)
  rw [List.inj_on_of_nodup_map hnames (hmem s hs) (hmem t ht) hname]

/-- Of two scripts with one number and one file name the one that is listed later is described: the schemas of
an app are others when they are listed the other way round. -/
theorem schemas_depend_on_listing :
    let handler : Script := ⟨"s1", "main.ts", "export function handler() \x7b\x7d", 0, ""⟩
    let empty : Script := ⟨"s2", "main.ts", "", 0, ""⟩
    let app (scripts : List Script) : App := ⟨"app-1", "demo", none, scripts⟩
    [handler, empty].Perm [empty, handler] ∧
      (app [handler, empty]).schemas = .ok [("main.ts", ⟨none, none⟩)] ∧
      (app [empty, handler]).schemas = .ok [("main.ts", ⟨some [], none⟩)] ∧
      (app [handler, empty]).schemas ≠ (app [empty, handler]).schemas := by
  intro handler empty app
  have hbundled : ∀ s t : Script, s.isBundled = true → t.isBundled = true → s.place ≤ t.place →
      (app [s, t]).bundled = [s, t] := by
    intro s t hs ht hle
    have hall : (app [s, t]).scripts.filter Script.isBundled = [s, t] := by simp [app, hs, ht]
    rw [App.bundled, hall]
    exact List.mergeSort_of_pairwise (by simpa using Script.atOrBefore_iff.mpr hle)
  have hhandler : ScriptSchema.ofSource "export function handler() \x7b\x7d" true = .ok ⟨some [], none⟩ := rfl
  have hempty : ScriptSchema.ofSource "" true = .ok ⟨none, none⟩ := rfl
  have hlater : (app [handler, empty]).schemas = .ok [("main.ts", ⟨none, none⟩)] := by
    rw [App.schemas, hbundled handler empty (by decide +kernel) (by decide +kernel) (le_refl _)]
    simp only [App.schemasFrom, handler, empty, hhandler, hempty]
    rfl
  have hlater' : (app [empty, handler]).schemas = .ok [("main.ts", ⟨some [], none⟩)] := by
    rw [App.schemas, hbundled empty handler (by decide +kernel) (by decide +kernel) (le_refl _)]
    simp only [App.schemasFrom, handler, empty, hhandler, hempty]
    rfl
  refine ⟨.swap _ _ [], hlater, hlater', ?_⟩
  rw [hlater, hlater']
  simp

end BuildContext

end AppBundler
