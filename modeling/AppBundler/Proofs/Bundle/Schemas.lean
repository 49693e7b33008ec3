import AppBundler.App.Validation
import AppBundler.Proofs.Bundle.Scripts
import AppBundler.Proofs.Schema.Leniency
/-!
# Schemas that are validated and bundled

An app is validated by extracting the schemas of its scripts strictly, and bundled with the schemas that a lenient
extraction gives. They are the same ones, script by script, as long as no two scripts have the same file name.
-/

namespace AppBundler

/-- What a map has under a key is told by its first entry with the key. -/
theorem lookup_cons_eq {α : Type} (k key : String) (value : α) (map : List (String × α)) :
    ((key, value) :: map).lookup k = if k = key then some value else map.lookup k := by
  rw [List.lookup_cons]
  by_cases hk : k = key <;> simp [hk, beq_eq_false_iff_ne.mpr]

/-- What a map has under a key after an entry is put into it. -/
theorem lookup_putSorted {α : Type} (key : String) (value : α) (map : List (String × α)) (k : String) :
    (putSorted key value map).lookup k = if k = key then some value else map.lookup k := by
  induction map with
  | nil => rw [putSorted, lookup_cons_eq]
  | cons entry map ih =>
    obtain ⟨key', value'⟩ := entry
    rw [putSorted]
    split
    · rename_i hsame
      subst hsame
      rw [lookup_cons_eq, lookup_cons_eq]
      split <;> rfl
    · rename_i hother
      split
      · rw [lookup_cons_eq]
      · rw [lookup_cons_eq, lookup_cons_eq, ih]
        by_cases hk : k = key'
        · rw [if_pos hk, if_pos hk, if_neg (hk ▸ hother)]
        · rw [if_neg hk, if_neg hk]

namespace App

/-- Each script is described under its file name, and what was there under other names stays. -/
theorem lookup_schemasFrom {found result : List (String × ScriptSchema)} {scripts : List Script}
    (h : schemasFrom found scripts = .ok result) (hnames : (scripts.map Script.filename).Nodup) :
    (∀ s ∈ scripts, ∃ schema, ScriptSchema.ofSource s.code true = .ok schema ∧ result.lookup s.filename = some schema) ∧
      ∀ name ∉ scripts.map Script.filename, result.lookup name = found.lookup name := by
  induction scripts generalizing found with
  | nil =>
    cases h
    exact ⟨nofun, fun _ _ => rfl⟩
  | cons s scripts ih =>
    rw [schemasFrom] at h
    cases hschema : ScriptSchema.ofSource s.code true with
    | error e =>
      rw [hschema] at h
      cases h
    | ok schema =>
      rw [hschema] at h
      rw [List.map_cons, List.nodup_cons] at hnames
      obtain ⟨hscripts, hothers⟩ := ih h hnames.2
      refine ⟨List.forall_mem_cons.mpr ⟨⟨schema, hschema, ?_⟩, hscripts⟩, fun name hname => ?_⟩
      · rw [hothers _ hnames.1, lookup_putSorted, if_pos rfl]
      · rw [List.map_cons, List.mem_cons, not_or] at hname
        rw [hothers name hname.2, lookup_putSorted, if_neg hname.1]

/-- The names of the bundled scripts differ when those of all scripts do. -/
theorem nodup_bundled {app : App} (h : (app.scripts.map Script.filename).Nodup) :
    (app.bundled.map Script.filename).Nodup := by
  have hperm := (List.mergeSort_perm (app.scripts.filter Script.isBundled) Script.atOrBefore).map Script.filename
  exact hperm.nodup_iff.mpr (h.sublist (List.filter_sublist.map _))

/-- The schema with which a script is bundled is the one that was validated. -/
theorem lookup_schemas {app : App} {found : List (String × ScriptSchema)} (h : app.schemas = .ok found)
    (hnames : (app.scripts.map Script.filename).Nodup) {s : Script} (hs : s ∈ app.bundled) (filename : String) :
    found.lookup s.filename = some (PreparedScript.ofCode filename s.code).schema := by
  obtain ⟨schema, hschema, hlookup⟩ := (lookup_schemasFrom h (nodup_bundled hnames)).1 s hs
  rw [hlookup, ScriptSchema.schema_ofCode (ScriptSchema.ofSource_agrees s.code schema hschema)]

end App

namespace BuildContext

/-- What the description of the app is made of. -/
theorem bootModule_eq {config : BuildConfig} {cache : ModuleCache} {request : BuildRequest} {c : BuildContext}
    (h : ofRequest config cache request = .ok c) :
    c.bootModule =
      Boot.description ⟨request.app.id, request.app.slug, request.version, c.scripts, c.entry.text⟩ := by
  obtain ⟨hbase, hentry, hscripts, -⟩ := ofRequest_eq_ok h
  simp only [ofRequest, hbase, hentry, hscripts, Except.mapError, bind, Except.bind, pure, Except.pure,
    Except.ok.injEq] at h
  rw [← h]

end BuildContext

open Extract in
/-- **Strict and lenient extraction agree.** A lenient extraction fails for no source whose types can all be
classified, and gives the schema of a strict one whenever that one gives any. So each script of a valid app is
bundled, and described to the program that runs the bundle, with the schema it was validated with. -/
theorem extractions_agree :
    (∀ source, (∀ m, Module.ofSource source = .ok m → ¬ HasEndless m) →
      ∃ schema, ScriptSchema.ofSource source false = .ok schema) ∧
    (∀ source schema, ScriptSchema.ofSource source true = .ok schema →
      ScriptSchema.ofSource source false = .ok schema) ∧
    ∀ (app : App) (found : List (String × ScriptSchema)), app.schemas = .ok found →
      (app.scripts.map Script.filename).Nodup →
      (∀ s ∈ app.bundled,
        found.lookup s.filename = some (PreparedScript.ofCode (FileName.sanitize s.filename) s.code).schema) ∧
      ∀ config cache request c, request.app = app → BuildContext.ofRequest config cache request = .ok c →
        ∃ info : BootInfo, c.bootModule = Boot.description info ∧
          List.Forall₂ (fun (s : Script) (b : BundledScript) => b.prepared.filename = FileName.sanitize s.filename ∧
            found.lookup s.filename = some b.prepared.schema) app.bundled info.scripts := by
  refine ⟨fun source hends => ScriptSchema.ofSource_lenient hends, fun source => ScriptSchema.ofSource_agrees source, ?_⟩
  intro app found hfound hnames
  refine ⟨fun s hs => App.lookup_schemas hfound hnames hs _, ?_⟩
  rintro config cache request c rfl hc
  refine ⟨_, BuildContext.bootModule_eq hc, ?_⟩
  have hbundled := (List.forall₂_and_left request.app.bundled c.scripts).mpr
    ⟨fun s (hs : s ∈ request.app.bundled) => hs, (BuildContext.scripts_bundled hc).1⟩
  refine hbundled.imp fun s b hboth => ?_
  obtain ⟨hs, -, hprepared⟩ := hboth
  rw [hprepared]
  exact ⟨BuildContext.filename_ofCode _ _, App.lookup_schemas hfound hnames hs _⟩

/-- A script with a handler of one input. -/
def describedCode : String := "export function handler(i: \x7b x: string \x7d) \x7b\x7d\n"

/-- The module of the script. -/
def describedModule : Module :=
  ⟨[.function ⟨some "handler",
    ⟨[⟨.ident "i", false, some (.object [⟨"x", false, some (.keyword "string"), none, false⟩]), false⟩], false⟩, .named⟩]⟩

/-- The schema of the script. -/
def describedSchema : ScriptSchema := ⟨some [⟨"x", .primitive .string none, false, none, none, none⟩], none⟩

/-- The request to build an app with that script. -/
def describedRequest : BuildRequest where
  app := ⟨"app", "app", none, [⟨"0", "a b.ts", describedCode, 0, ""⟩]⟩
  target := "deno"
  version := "1"
  baseUrl := none

theorem module_describedCode : Module.ofSource describedCode = .ok describedModule := rfl

theorem strict_describedCode : ScriptSchema.ofSource describedCode true = .ok describedSchema := by
  unfold ScriptSchema.ofSource Extract.fromSource Extract.moduleOf?
  rw [module_describedCode]
  rfl

theorem bundled_describedRequest : describedRequest.app.bundled = describedRequest.app.scripts := by
  have hall : describedRequest.app.scripts.filter Script.isBundled = describedRequest.app.scripts := by decide +kernel
  rw [App.bundled, hall]
  exact List.mergeSort_singleton _

/-- The script is described leniently as it is strictly, and under its name in the bundle. -/
theorem extractions_agree_described :
    (∃ schema, ScriptSchema.ofSource describedCode false = .ok schema) ∧
    ScriptSchema.ofSource describedCode false = .ok describedSchema ∧
    ∃ c info, BuildContext.ofRequest .default .default describedRequest = .ok c ∧
      c.bootModule = Boot.description info ∧
      List.Forall₂ (fun (s : Script) (b : BundledScript) => b.prepared.filename = FileName.sanitize s.filename ∧
        [("a b.ts", describedSchema)].lookup s.filename = some b.prepared.schema)
        describedRequest.app.bundled info.scripts := by
  have hschemas : describedRequest.app.schemas = .ok [("a b.ts", describedSchema)] := by
    rw [App.schemas, bundled_describedRequest]
    simp only [describedRequest, App.schemasFrom, strict_describedCode]
    rfl
  have hbuilt : (BuildContext.ofRequest .default .default describedRequest).toOption.isSome = true := by
    unfold BuildContext.ofRequest
    rw [bundled_describedRequest]
    decide +kernel
  refine ⟨extractions_agree.1 describedCode ?_, extractions_agree.2.1 _ _ strict_describedCode, ?_⟩
  · intro m hm
    obtain rfl := Except.ok.inj (module_describedCode.symm.trans hm)
    rintro ⟨t, ht, hnone⟩
    have hall : ∀ t ∈ describedModule.types, (describedModule.nodeOf t).isSome = true := by decide +kernel
    simpa [hnone] using hall t ht
  · cases hc : BuildContext.ofRequest .default .default describedRequest with
    | error e =>
      rw [hc] at hbuilt
      cases hbuilt
    | ok c =>
      obtain ⟨info, hinfo, hscripts⟩ :=
        (extractions_agree.2.2 describedRequest.app _ hschemas (by decide)).2 _ _ _ c rfl hc
      exact ⟨c, info, rfl, hinfo, hscripts⟩

end AppBundler
