import AppBundler.Bundle.Prepared
import AppBundler.Proofs.Schema.Faults
/-!
# Exports

A module exports a name by the modifier of a declaration or by an entry of an export list. A handler that is
exported once is described from what the export is bound to, except in two cases: another declaration has the
exported name without being exported under it, or the declaration itself is the default export besides. A strict
extraction reports these cases, and any other describes the declaration that has the name.
-/

namespace AppBundler

/-- A way in which a module exports a name. -/
inductive Export where
  /-- By the modifier of a function or a variable. -/
  | declared (binding : Binding)
  /-- By an entry of an export list, which may pass on what another module exports. -/
  | listed (localName : String) (source : Option String)

/-- The name of what is bound; only a default export may lack one. -/
def Binding.name? : Binding → Option String
  | .function f => f.name
  | .variable v => some v.name

/-- How a declaration is exported by its own modifier. -/
def Binding.exported : Binding → ExportKind
  | .function f => f.exported
  | .variable v => v.exported

namespace Item

/-- The function or the variable that an item declares. -/
def binding? : Item → Option Binding
  | .function f => some (.function f)
  | .variable v => some (.variable v)
  | _ => none

/-- How an item exports a name. -/
def exportsOf (name : String) : Item → List Export
  | .function f => if f.name = some name ∧ f.exported = .named then [.declared (.function f)] else []
  | .variable v => if v.name = name ∧ v.exported = .named then [.declared (.variable v)] else []
  | .exportNamed specifiers source =>
    (specifiers.filter fun s => s.exportedName = name).map fun s => .listed s.localName source
  | _ => []

end Item

/-- All the ways in which a module exports a name. -/
def Module.exportsOf (m : Module) (name : String) : List Export := m.items.flatMap (Item.exportsOf name)

/-- The declaration in the module that an export is bound to. -/
def Export.binding? (m : Module) : Export → Option Binding
  | .declared b => some b
  | .listed localName none => m.binding? localName
  | .listed _ (some _) => none

/-- An export is bound to what it declares, or to what has the name that it lists. -/
theorem Export.cases_of_binding? {m : Module} {e : Export} {b : Binding} (h : e.binding? m = some b) :
    e = .declared b ∨ ∃ localName, e = .listed localName none ∧ m.binding? localName = some b := by
  cases e with
  | declared _ => exact Or.inl (congrArg _ (Option.some.inj h))
  | listed localName source =>
    cases source with
    | none => exact Or.inr ⟨localName, rfl, h⟩
    | some _ => cases h

namespace Module

variable {m : Module} {name localName : String} {b : Binding}

theorem exists_item_of_binding? (h : m.binding? name = some b) :
    ∃ item ∈ m.items, item.binding? = some b ∧ b.name? = some name := by
  obtain ⟨item, hitem, heq⟩ := List.exists_of_findSome?_eq_some h
  refine ⟨item, hitem, ?_⟩
  cases item <;> simp at heq
  all_goals
    obtain ⟨hname, rfl⟩ := heq
    simp [Item.binding?, Binding.name?, hname]

/-- What is declared under a name is one of its exports when its own modifier says so. -/
theorem mem_exportsOf_of_binding? (h : m.binding? name = some b) (hb : b.exported = .named) :
    .declared b ∈ m.exportsOf name := by
  obtain ⟨item, hitem, heq, hname⟩ := exists_item_of_binding? h
  refine List.mem_flatMap.mpr ⟨item, hitem, ?_⟩
  cases item <;> simp [Item.binding?] at heq
  all_goals
    obtain rfl := heq
    simp_all [Item.exportsOf, Binding.name?, Binding.exported]

/-- An export by a modifier is a declaration of the exported name. -/
theorem declared_of_mem_exportsOf (h : .declared b ∈ m.exportsOf name) :
    b.exported = .named ∧ m.binding? name ≠ none := by
  obtain ⟨item, hitem, h⟩ := List.mem_flatMap.mp h
  cases item <;> simp [Item.exportsOf] at h
  all_goals
    obtain ⟨⟨hname, hexported⟩, rfl⟩ := h
    refine ⟨hexported, fun hnone => ?_⟩
    simpa [hname] using List.findSome?_eq_none_iff.mp hnone _ hitem

/-- The entries of export lists that export a name, and pass on nothing, are among its exports. -/
theorem listed_mem_exportsOf :
    .listed localName none ∈ m.exportsOf name ↔ ⟨localName, name⟩ ∈ m.exportSpecifiers := by
  simp only [exportsOf, exportSpecifiers, List.mem_flatMap]
  refine exists_congr fun item => and_congr_right fun _ => ?_
  match item with
  | .function f | .variable v => simp [Item.exportsOf]
  | .alias _ | .interface _ | .enum _ | .exportDefault _ => simp [Item.exportsOf]
  | .exportNamed specifiers (some source) => simp [Item.exportsOf]
  | .exportNamed specifiers none =>
    simp only [Item.exportsOf, List.mem_map, List.mem_filter, decide_eq_true_eq, Export.listed.injEq, and_true]
    constructor
    · rintro ⟨⟨_, _⟩, ⟨hs, rfl⟩, rfl⟩
      exact hs
    · intro hs
      exact ⟨_, ⟨hs, rfl⟩, rfl⟩

/-- A list exports a local name under itself exactly when that is one of the exports of the name. -/
theorem listedExport_eq_named (hname : name ≠ "default") :
    m.listedExport name = .named ↔ .listed name none ∈ m.exportsOf name := by
  have hlisted : m.listedExport name = .named ↔
      ((m.exportSpecifiers.filter fun s => s.localName = name).any
        fun s => s.exportedName ≠ "default" && s.exportedName = name) = true := by
    rw [listedExport]
    split
    · exact iff_of_true rfl ‹_›
    · refine iff_of_false ?_ ‹_›
      split <;> nofun
  rw [hlisted, listed_mem_exportsOf, List.any_eq_true]
  simp only [List.mem_filter, ne_eq, decide_not, Bool.and_eq_true, Bool.not_eq_true', decide_eq_false_iff_not,
    decide_eq_true_eq]
  constructor
  · rintro ⟨⟨_, _⟩, ⟨hs, hlocal⟩, -, hexported⟩
    simp only at hlocal hexported
    subst hlocal hexported
    exact hs
  · intro hs
    exact ⟨_, ⟨hs, rfl⟩, hname, rfl⟩

/-- The name behind a listed export is the name of an entry. -/
theorem listed_of_exportedLocal? (h : m.exportedLocal? name = some localName) :
    .listed localName none ∈ m.exportsOf name := by
  obtain ⟨s, hfind, rfl⟩ := Option.map_eq_some_iff.mp h
  obtain rfl : s.exportedName = name := by simpa using List.find?_some hfind
  exact listed_mem_exportsOf.mpr (List.mem_of_find?_eq_some hfind)

theorem exportedLocal?_isSome (h : .listed localName none ∈ m.exportsOf name) : (m.exportedLocal? name).isSome := by
  rw [exportedLocal?, Option.isSome_map, List.find?_isSome]
  exact ⟨_, listed_mem_exportsOf.mp h, decide_eq_true rfl⟩

/-- A declared name is exported under itself by its own modifier, or, when it has none, by an entry of a list. -/
theorem exportKind_eq_named (hname : name ≠ "default") (h : m.binding? name = some b) :
    m.exportKind name = .named ↔
      b.exported = .named ∨ b.exported = .none ∧ .listed name none ∈ m.exportsOf name := by
  have hkind : m.exportKind name = if b.exported = .none then m.listedExport name else b.exported := by
    rw [exportKind, h]
    cases b <;> rfl
  rw [hkind, ← listedExport_eq_named hname]
  cases b.exported <;> simp

end Module

/-! ## What is described -/

open Extract

/-- The declaration is the one whose inputs are described: a strict extraction finds no fault with the way in which
the handler is exported, and every extraction, and the bundled script, starts from a name of the declaration. -/
structure Module.DescribesHandler (m : Module) (b : Binding) : Prop where
  no_shape_fault : ∀ fault, ScriptSchema.ofModule m true ≠ .error (.exportShape handlerExport fault)
  starts_from : ∃ root, m.binding? root = some b ∧
    (∀ strict, Extract.handler m strict = handlerFrom m strict root) ∧
    ∀ filename code schema, Module.ofSource code = .ok m → ScriptSchema.ofModule m false = .ok schema →
      (PreparedScript.ofCode filename code).handler = some root

/-- No declaration but this one has the exported name, and it is not the default export. -/
def Module.IsUnrivaled (m : Module) (b : Binding) : Prop :=
  ∀ named, m.binding? handlerExport = some named → named = b ∧ b.exported ≠ .default

section Once

variable {m : Module} {e : Export} {b named : Binding}

/-- A declaration of the exported name is exported under it exactly when it is what the export is bound to, and not
the default export. -/
theorem exportKind_eq_named_iff (hone : m.exportsOf handlerExport = [e]) (he : e.binding? m = some b)
    (hnamed : m.binding? handlerExport = some named) :
    m.exportKind handlerExport = .named ↔ named = b ∧ b.exported ≠ .default := by
  rw [Module.exportKind_eq_named (by decide) hnamed, hone, List.mem_singleton]
  constructor
  · rintro (hexported | ⟨hexported, rfl⟩)
    · have hmem := Module.mem_exportsOf_of_binding? hnamed hexported
      rw [hone, List.mem_singleton] at hmem
      subst hmem
      obtain rfl := Option.some.inj he
      exact ⟨rfl, by simp [hexported]⟩
    · obtain rfl := Option.some.inj (hnamed.symm.trans he)
      exact ⟨rfl, by simp [hexported]⟩
  · rintro ⟨rfl, hexported⟩
    cases hkind : named.exported with
    | named => exact Or.inl rfl
    | default => exact absurd hkind hexported
    | none =>
      refine Or.inr ⟨rfl, ?_⟩
      rcases Export.cases_of_binding? he with rfl | ⟨localName, rfl, hlocal⟩
      · -- What a modifier exports is exported by its modifier.
        have hmem := Module.declared_of_mem_exportsOf (hone ▸ List.mem_singleton_self _)
        simp [hkind] at hmem
      · obtain ⟨-, -, -, hlocal⟩ := Module.exists_item_of_binding? hlocal
        obtain ⟨-, -, -, hname⟩ := Module.exists_item_of_binding? hnamed
        rw [Option.some.inj (hname.symm.trans hlocal)]

/-- An unrivaled declaration is what every extraction and the bundled script start from. -/
theorem exists_root_of_unrivaled (hone : m.exportsOf handlerExport = [e]) (he : e.binding? m = some b)
    (hb : m.IsUnrivaled b) :
    ∃ root, m.binding? root = some b ∧ (∀ strict, rootName? m handlerExport strict = .ok (some root)) ∧
      PreparedScript.boundName? m handlerExport = some root := by
  cases hnamed : m.binding? handlerExport with
  | some named =>
    have hkind := (exportKind_eq_named_iff hone he hnamed).mpr (hb named hnamed)
    obtain ⟨rfl, -⟩ := hb named hnamed
    refine ⟨handlerExport, hnamed, fun strict => ?_, ?_⟩
    · rw [rootName?, hnamed, hkind]
    · simp [PreparedScript.boundName?, hnamed]
  | none =>
    rcases Export.cases_of_binding? he with rfl | ⟨localName, rfl, hbinding⟩
    · exact absurd hnamed (Module.declared_of_mem_exportsOf (hone ▸ List.mem_singleton_self _)).2
    · have hlocal : m.exportedLocal? handlerExport = some localName := by
        obtain ⟨found, hfound⟩ := Option.isSome_iff_exists.mp
          (Module.exportedLocal?_isSome (m := m) (hone ▸ List.mem_singleton_self (Export.listed localName none)))
        have hmem := Module.listed_of_exportedLocal? hfound
        rw [hone, List.mem_singleton] at hmem
        cases hmem
        exact hfound
      refine ⟨localName, hbinding, fun strict => ?_, ?_⟩
      · rw [rootName?, hnamed]
        exact congrArg Except.ok hlocal
      · simp [PreparedScript.boundName?, hnamed, hlocal, hbinding]

/-- Where there is a rival, a strict extraction reports it and a lenient one starts from it. -/
theorem rootName?_of_rival (hone : m.exportsOf handlerExport = [e]) (he : e.binding? m = some b)
    (hb : ¬ m.IsUnrivaled b) :
    (∃ fault, rootName? m handlerExport true = .error (.exportShape handlerExport fault)) ∧
      rootName? m handlerExport false = .ok (some handlerExport) := by
  simp only [Module.IsUnrivaled, not_forall] at hb
  obtain ⟨named, hnamed, hrival⟩ := hb
  have hkind := mt (exportKind_eq_named_iff hone he hnamed).mp hrival
  rw [rootName?, rootName?, hnamed]
  cases hexport : m.exportKind handlerExport with
  | named => exact absurd hexport hkind
  | default => exact ⟨⟨.defaultExport, rfl⟩, rfl⟩
  | none => exact ⟨⟨.notExported, rfl⟩, rfl⟩

end Once

section Start

variable {m : Module} {root : String} {strict : Bool}

theorem handler_of_rootName? (h : rootName? m handlerExport strict = .ok (some root)) :
    Extract.handler m strict = handlerFrom m strict root := by
  rw [handler_eq, h]
  rfl

/-- Where an extraction starts from a name, no strict one finds fault with the handler's export. -/
theorem ofModule_no_shape_fault (h : rootName? m handlerExport true = .ok (some root)) (fault : ShapeFault) :
    ScriptSchema.ofModule m true ≠ .error (.exportShape handlerExport fault) := by
  have hfails : FailsWith (fun e => e ≠ .exportShape handlerExport fault) (ScriptSchema.ofModule m true) := by
    refine FailsWith.bind ?_ fun inputs _ => FailsWith.bind ?_ fun map _ => FailsWith.ok _
    · rw [handler_of_rootName? h]
      exact handlerFrom_failsWith nofun nofun nofun
    · refine actions_failsWith nofun (fun _ other => ?_) nofun nofun nofun
      simp [actionsExport, handlerExport]
  exact fun herror => hfails _ herror rfl

theorem ofModule_eq_ok {schema : ScriptSchema} (h : ScriptSchema.ofModule m strict = .ok schema) :
    Extract.handler m strict = .ok schema.handler ∧ Extract.actions m strict = .ok schema.actions := by
  rw [ScriptSchema.ofModule] at h
  cases hhandler : Extract.handler m strict with
  | error e =>
    rw [hhandler] at h
    cases h
  | ok inputs =>
    cases hactions : Extract.actions m strict with
    | error e =>
      rw [hhandler, hactions] at h
      cases h
    | ok map =>
      rw [hhandler, hactions] at h
      cases h
      exact ⟨rfl, rfl⟩

theorem handlerFrom_ne_ok_none : handlerFrom m false root ≠ .ok none := by
  intro h
  rw [handlerFrom] at h
  split at h
  · rename_i sig _
    cases hinputs : inputsOf m sig handlerExport false with
    | error e =>
      rw [hinputs] at h
      cases h
    | ok inputs =>
      rw [hinputs] at h
      cases h
  · cases h
  · cases h

/-- A script whose handler is told is bundled with the name that the handler is bound to. -/
theorem handler_ofCode {filename code : String} {schema : ScriptSchema}
    (hroot : rootName? m handlerExport false = .ok (some root))
    (hbound : PreparedScript.boundName? m handlerExport = some root) (hcode : Module.ofSource code = .ok m)
    (hschema : ScriptSchema.ofModule m false = .ok schema) :
    (PreparedScript.ofCode filename code).handler = some root := by
  have hhandler := (ofModule_eq_ok hschema).1
  rw [handler_of_rootName? hroot] at hhandler
  have hsome : schema.handler ≠ none := fun hnone => handlerFrom_ne_ok_none (hnone ▸ hhandler)
  obtain ⟨inputs, hinputs⟩ := Option.ne_none_iff_exists'.mp hsome
  simp [PreparedScript.ofCode, hcode, hschema, hinputs, hbound]

end Start

/-- **The handler that is exported is the one that is described**, unless it has a rival. In a module that exports the
handler once, bound to a declaration of the module, the inputs that are described are those of that declaration exactly
when no other declaration has the exported name and the declaration is not the default export too. Otherwise a
strict extraction reports the handler's export, and a lenient one starts from the declaration that has the
exported name. -/
theorem describesHandler_iff_unrivaled (m : Module) (e : Export) (b : Binding)
    (hone : m.exportsOf handlerExport = [e]) (he : e.binding? m = some b) :
    (m.DescribesHandler b ↔ m.IsUnrivaled b) ∧
      (¬ m.IsUnrivaled b → (∃ fault, ScriptSchema.ofModule m true = .error (.exportShape handlerExport fault)) ∧
        Extract.handler m false = handlerFrom m false handlerExport) := by
  have hrival : ¬ m.IsUnrivaled b →
      (∃ fault, ScriptSchema.ofModule m true = .error (.exportShape handlerExport fault)) ∧
        Extract.handler m false = handlerFrom m false handlerExport := by
    intro hb
    obtain ⟨⟨fault, hstrict⟩, hlenient⟩ := rootName?_of_rival hone he hb
    refine ⟨⟨fault, ?_⟩, handler_of_rootName? hlenient⟩
    rw [ScriptSchema.ofModule, handler_eq, hstrict]
    rfl
  refine ⟨⟨fun hdescribes => ?_, fun hb => ?_⟩, hrival⟩
  · by_contra hb
    obtain ⟨⟨fault, hfault⟩, -⟩ := hrival hb
    exact hdescribes.no_shape_fault fault hfault
  · obtain ⟨root, hbinding, hroot, hbound⟩ := exists_root_of_unrivaled hone he hb
    exact ⟨ofModule_no_shape_fault (hroot true), root, hbinding, fun strict => handler_of_rootName? (hroot strict),
      fun filename code schema hcode hschema => handler_ofCode (hroot false) hbound hcode hschema⟩

/-- A function of one parameter, an object with a text. -/
def takesText (name key : String) (exported : ExportKind) : FunctionDecl :=
  ⟨some name, ⟨[⟨.ident "i", false, some (.object [⟨key, false, some (.keyword "string"), none, false⟩]), false⟩], false⟩,
    exported⟩

/-- A function that is exported as the handler by a list is described. -/
theorem describesHandler_iff_unrivaled_alias :
    Module.ofSource "function run(i: \x7b a: string \x7d) \x7b\x7d\nexport \x7b run as handler \x7d;\n" =
        .ok ⟨[.function (takesText "run" "a" .none), .exportNamed [⟨"run", "handler"⟩] none]⟩ ∧
      Module.DescribesHandler ⟨[.function (takesText "run" "a" .none), .exportNamed [⟨"run", "handler"⟩] none]⟩
        (.function (takesText "run" "a" .none)) :=
  ⟨rfl, (describesHandler_iff_unrivaled _ (.listed "run" none) _ rfl rfl).1.mpr nofun⟩

/-- A module that exports `run` as its handler and has another function of that name. -/
def rivaledModule : Module :=
  ⟨[.function (takesText "handler" "b" .none), .function (takesText "run" "a" .none),
    .exportNamed [⟨"run", "handler"⟩] none]⟩

/-- A function that is not exported comes before the one that is exported as the handler. -/
theorem handler_lost_to_unexported :
    Module.ofSource
        ("function handler(i: \x7b b: string \x7d) \x7b\x7d\n" ++
          "function run(i: \x7b a: string \x7d) \x7b\x7d\nexport \x7b run as handler \x7d;\n") =
      .ok rivaledModule ∧
    rivaledModule.exportsOf handlerExport = [.listed "run" none] ∧
    (Export.listed "run" none).binding? rivaledModule = some (.function (takesText "run" "a" .none)) ∧
    ScriptSchema.ofModule rivaledModule true = .error (.exportShape handlerExport .notExported) ∧
    Extract.handler rivaledModule false = .ok (some [⟨"b", .primitive .string none, false, none, none, none⟩]) :=
  ⟨rfl, rfl, rfl, rfl, rfl⟩

end AppBundler
