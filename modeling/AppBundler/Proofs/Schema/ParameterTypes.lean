import AppBundler.Proofs.Schema.Undeclared
import AppBundler.Proofs.Source.Braces
import AppBundler.Proofs.Source.Tree.Handlers
import AppBundler.Schema.Extract
/-!
# Three ways to give the type of a parameter

Signatures between braces can be the type of a parameter themselves, that of an alias, or an interface. The inputs of a
handler are the same in all three ways, unless the first word of the signatures is `readonly`: then the braces of a type
are those of a mapped type, which has no members, but the braces of an interface are not.
-/

namespace AppBundler

/-! ## Members with distinct keys -/

namespace Member

variable {x : Member} {ms into : List Member}

theorem put_of_not_mem (h : x.key ∉ into.map (·.key)) : put x into = into ++ [x] := by
  induction into with
  | nil => rfl
  | cons y r ih =>
    obtain ⟨hy, hr⟩ := not_or.mp (mt List.mem_cons.mpr h)
    rw [put, if_neg (Ne.symm hy), ih hr, List.cons_append]

/-- Members with keys of their own are added behind the others. -/
theorem merge_of_nodup (h : ((into ++ ms).map (·.key)).Nodup) : merge into ms = into ++ ms := by
  induction ms generalizing into with
  | nil => rw [List.append_nil]; rfl
  | cons x ms ih =>
    have hx : x.key ∉ into.map (·.key) := by
      rw [List.map_append, List.map_cons] at h
      exact fun hmem => (List.nodup_append.mp h).2.2 _ hmem _ List.mem_cons_self rfl
    rw [List.append_cons, ← put_of_not_mem hx] at h
    rw [List.append_cons, ← put_of_not_mem hx]
    exact ih h

end Member

/-! ## The inputs of members -/

namespace Extract

open Classify

/-- The node of a property that mentions no declaration is the same in all modules. -/
theorem exists_propertyNodeOf (t : TypeExpr) :
    ∃ node, ∀ m : Module, m.TypesOnly → m.IsForeign t → m.propertyNodeOf t = some node := by
  obtain ⟨node, hnode⟩ := exists_settles_nodeOf t
  by_cases hfree : isFreeText t = true
  · refine ⟨.primitive .string none, fun m _ _ => ?_⟩
    rw [Module.propertyNodeOf, propertyNode, if_pos hfree]
    rfl
  · refine ⟨node, fun m htypes hforeign => ?_⟩
    rw [Module.propertyNodeOf, propertyNode, if_neg hfree, hnode m htypes hforeign _ (length_within_le_depthFor m t)]
    rfl

/-- The input of a member that mentions no declaration is the same in all modules. -/
theorem exists_inputOf (i : String) (x : Member) :
    ∃ input : Input, (input.key = x.key ∧ input.optional = x.optional) ∧ ∀ m : Module, m.TypesOnly →
      (∀ t ∈ x.type, m.IsForeign t) → inputOf m (.ident i) x = some input := by
  let doc := x.doc.elim .none Doc.parse
  cases htype : x.type with
  | none =>
    refine ⟨⟨x.key, .any, x.optional, doc.name, doc.description, doc.default⟩, ⟨rfl, rfl⟩, fun m _ _ => ?_⟩
    simp [inputOf, htype, propOf?, doc]
  | some t =>
    obtain ⟨node, hnode⟩ := exists_propertyNodeOf t
    refine ⟨⟨x.key, node, x.optional, doc.name, doc.description, doc.default⟩, ⟨rfl, rfl⟩, fun m htypes hforeign => ?_⟩
    simp [inputOf, htype, hnode m htypes (hforeign t rfl), propOf?, doc]

theorem exists_inputs (i : String) (ms : List Member) :
    ∃ inputs : List Input, (inputs.map fun input => (input.key, input.optional)) = (ms.map fun x => (x.key, x.optional)) ∧
      ∀ m : Module, m.TypesOnly → (∀ x ∈ ms, ∀ t ∈ x.type, m.IsForeign t) → ms.mapM (inputOf m (.ident i)) = some inputs := by
  induction ms with
  | nil => exact ⟨[], rfl, fun _ _ _ => rfl⟩
  | cons x ms ih =>
    obtain ⟨input, ⟨hkey, hoptional⟩, hinput⟩ := exists_inputOf i x
    obtain ⟨inputs, hkeys, hinputs⟩ := ih
    refine ⟨input :: inputs, by rw [List.map_cons, List.map_cons, hkeys, hkey, hoptional], fun m htypes hforeign => ?_⟩
    obtain ⟨hx, hms⟩ := List.forall_mem_cons.mp hforeign
    rw [List.mapM_cons, hinput m htypes hx, hinputs m htypes hms]
    rfl

/-- The inputs of a handler are those that the type of its parameter tells. -/
theorem handler_of_binding? {m : Module} {t : TypeExpr} (h : m.binding? handlerExport = some (.function (handlerOf t)))
    (hany : t.isKeyword "any" = false) :
    handler m true = (typedInputs m ⟨.ident "i", false, some t, false⟩ t handlerExport true).map some := by
  have hexport : m.exportKind handlerExport = .named := by
    rw [Module.exportKind, h]
    rfl
  have hroot : rootName? m handlerExport true = .ok (some handlerExport) := by rw [rootName?, h, hexport]
  have hfunction : m.resolveFunction handlerExport = .ok (some (handlerOf t).sig) := by
    simp [Module.resolveFunction, Module.stepLimit, Chase.follow, Chase.functionStep, h]
  have hused : isUnused ⟨.ident "i", false, some t, false⟩ = false := by simp [isUnused, Param.name?]
  simp [handler, hroot, hfunction, inputsOf, handlerOf, hused, hany, bind, Except.bind]

end Extract

/-! ## The three modules -/

open Classify Lexer Token TypeExpr

/-- The modules that give a handler members in one of the three ways. -/
inductive Gives (ms : List Member) : Module → TypeExpr → Prop where
  | direct : Gives ms (inlineModule (.object ms)) (.object ms)
  | aliased : Gives ms (aliasModule (.object ms)) (.reference "P" [])
  | interfaced : Gives ms (interfaceModule ms) (.reference "P" [])

variable {ms : List Member} {m : Module} {t : TypeExpr}

namespace Gives

theorem typesOnly (h : Gives ms m t) : m.TypesOnly := by
  cases h with
  | direct => exact ⟨fun _ => rfl, fun name v => by simp [Module.binding?, inlineModule]⟩
  | aliased => exact ⟨fun _ => rfl, fun name v => by simp [Module.binding?, aliasModule]⟩
  | interfaced => exact ⟨fun _ => rfl, fun name v => by simp [Module.binding?, interfaceModule]⟩

theorem isForeign (h : Gives ms m t) {u : TypeExpr} (hu : ¬ u.Mentions "P") : m.IsForeign u := by
  intro name hname
  cases h with
  | direct => cases hname
  | aliased => rwa [List.mem_singleton.mp hname]
  | interfaced => rwa [List.mem_singleton.mp hname]

theorem binding? (h : Gives ms m t) : m.binding? Extract.handlerExport = some (.function (handlerOf t)) := by
  cases h <;> rfl

end Gives

theorem exists_depthFor (m : Module) (t : TypeExpr) : ∃ k, m.depthFor t = k + 2 := by
  have hdepth : m.declaredTypes.length + t.within.length + 2 ≤ m.depthFor t :=
    Nat.le_mul_of_pos_left _ (Nat.succ_pos _)
  exact ⟨m.depthFor t - 2, by omega⟩

/-- The members of the name are those of its declaration, inside of the name. -/
theorem membersOf_name (m : Module) :
    ∃ k, objectMembers m (.reference "P" []) = namedMembers m (membersOf m (k + 1)) "P" := by
  obtain ⟨k, hk⟩ := exists_depthFor m (.reference "P" [])
  exact ⟨k, by rw [objectMembers, hk, membersOf_reference (by simp)]⟩

theorem membersOf_aliasModule (t : TypeExpr) :
    ∃ k, (aliasModule t).membersOf (.reference "P" []) = (membersOf (aliasModule t) (k + 1) t).run' ["P"] := by
  obtain ⟨k, hk⟩ := membersOf_name (aliasModule t)
  have halias : (aliasModule t).alias? "P" = some ⟨"P", t⟩ := rfl
  refine ⟨k, ?_⟩
  rw [Module.membersOf, hk, namedMembers, halias, StateT.run'_eq, run_guarded]
  cases hrun : (membersOf (aliasModule t) (k + 1) t).run ["P"] <;> simp [StateT.run'_eq, hrun]

/-- **All three give the members that hold data.** -/
theorem Gives.membersOf (h : Gives ms m t) (hkeys : (ms.map (·.key)).Nodup) :
    m.membersOf t = some (some (Member.fields ms)) := by
  cases h with
  | direct =>
    obtain ⟨k, hk⟩ := exists_depthFor (inlineModule (.object ms)) (.object ms)
    rw [Module.membersOf, objectMembers, hk]
    rfl
  | aliased =>
    obtain ⟨k, hk⟩ := membersOf_aliasModule (.object ms)
    rw [hk]
    rfl
  | interfaced =>
    obtain ⟨k, hk⟩ := membersOf_name (interfaceModule ms)
    have hmerge : Member.merge [] (Member.fields ms) = Member.fields ms :=
      Member.merge_of_nodup ((List.filter_sublist.map _).nodup hkeys)
    have hinterfaces : (interfaceModule ms).interfaces "P" = [⟨"P", [], ms⟩] := rfl
    have halias : (interfaceModule ms).alias? "P" = none := rfl
    rw [Module.membersOf, hk, namedMembers, halias, hinterfaces, StateT.run'_eq, run_guarded]
    simp [mergeInterfaces, mergeBases, hmerge]

/-- The inputs are those of the members that hold data, whichever way they are given. -/
theorem exists_inputs_of_gives (hkeys : (ms.map (·.key)).Nodup) (hforeign : ∀ x ∈ ms, ∀ t ∈ x.type, ¬ t.Mentions "P") :
    ∃ inputs : List Input,
      (inputs.map fun input => (input.key, input.optional)) = ((Member.fields ms).map fun x => (x.key, x.optional)) ∧
        ∀ m t, Gives ms m t → Extract.handler m true = .ok (some inputs) := by
  obtain ⟨inputs, hinputs, hmodules⟩ := Extract.exists_inputs "i" (Member.fields ms)
  refine ⟨inputs, hinputs, fun m t hgives => ?_⟩
  have hany : t.isKeyword "any" = false := by cases hgives <;> rfl
  have htypes : ∀ x ∈ Member.fields ms, ∀ t ∈ x.type, m.IsForeign t := fun x hx t ht =>
    hgives.isForeign (hforeign x (List.mem_of_mem_filter hx) t ht)
  rw [Extract.handler_of_binding? hgives.binding? hany, Extract.typedInputs, hgives.membersOf hkeys]
  simp only [hmodules m hgives.typesOnly htypes]
  rfl

/-- A mapped type gives no members, whether it stands in its place or in an alias. -/
theorem handler_of_mapped :
    Extract.handler (inlineModule .other) true = .error (.resolution "handler" .notAnObjectType) ∧
      Extract.handler (aliasModule .other) true = .error (.resolution "handler" .notAnObjectType) :=
  ⟨rfl, rfl⟩

/-! ## The three texts -/

/-- A text between braces that is a list of property and method signatures. Their keys are distinct, and no type of a
property mentions `P`. -/
structure IsSignatureList (m : String) (ss : List Signature) (brace : Token) : Prop where
  enclosed : IsEnclosed m (ss.flatMap Signature.tokens) brace
  read : Signature.AreRead ss brace
  distinct : (ss.map fun s => s.member.key).Nodup
  foreign : ∀ s ∈ ss, ∀ t ∈ s.type, ¬ t.Mentions "P"

theorem inputsOfSource_eq {source : String} (h : Module.ofSource source = .ok m) :
    ScriptSchema.inputsOfSource source true = Extract.handler m true := by
  rw [ScriptSchema.inputsOfSource, Extract.fromSource, Extract.moduleOf?, h]
  rfl

/-- **Inline type, alias and interface give the same inputs** for all signatures, unless their first word is `readonly`:
those of the properties, each optional when it has a mark. With `readonly` first the interface still gives them, but
between the braces of a type all is one mapped type, of which no inputs are told. -/
theorem inputs_of_parameter_types {m : String} {ss : List Signature} {brace : Token}
    (h : IsSignatureList m ss brace) :
    ∃ inputs : List Input,
      (inputs.map fun input => (input.key, input.optional)) =
          ((Member.fields (ss.map Signature.member)).map fun x => (x.key, x.optional)) ∧
        ScriptSchema.inputsOfSource (interfaceText m) true = .ok (some inputs) ∧
        ((Signature.firstOf ss brace).isIdent "readonly" = false →
          ScriptSchema.inputsOfSource (inlineText m) true = .ok (some inputs) ∧
            ScriptSchema.inputsOfSource (aliasText m) true = .ok (some inputs)) ∧
        ((Signature.firstOf ss brace).isIdent "readonly" = true →
          closesGroups 0 (ss.flatMap Signature.tokens) = true →
            ScriptSchema.inputsOfSource (inlineText m) true = .error (.resolution "handler" .notAnObjectType) ∧
              ScriptSchema.inputsOfSource (aliasText m) true = .error (.resolution "handler" .notAnObjectType)) := by
  obtain ⟨henclosed, hread, hdistinct, hforeign⟩ := h
  have hkeys : ((ss.map Signature.member).map (·.key)).Nodup := by rwa [List.map_map]
  have hmembers : ∀ x ∈ ss.map Signature.member, ∀ t ∈ x.type, ¬ t.Mentions "P" := by
    intro x hx
    obtain ⟨s, hs, rfl⟩ := List.mem_map.mp hx
    exact hforeign s hs
  obtain ⟨inputs, hinputs, hmodules⟩ := exists_inputs_of_gives hkeys hmembers
  have hbrace := henclosed.isPunct
  have hopening : (openBrace " ").isPunct "\x7b" = true := rfl
  have hparameter : EndsType (.ofMark "" ")") := ⟨rfl, by decide⟩
  have halias : EndsType (.ofMark "" ";") := ⟨rfl, by decide⟩
  refine ⟨inputs, hinputs, ?_, fun hplain => ⟨?_, ?_⟩, fun hreadonly hgroups => ⟨?_, ?_⟩⟩
  · rw [inputsOfSource_eq (ofSource_interfaceText henclosed hread), hmodules _ _ .interfaced]
  · have htype := denotes_object hread hbrace hopening hplain hparameter
    rw [inputsOfSource_eq (ofSource_inlineText henclosed htype), hmodules _ _ .direct]
  · have htype := denotes_object hread hbrace hopening hplain halias
    rw [inputsOfSource_eq (ofSource_aliasText henclosed htype), hmodules _ _ .aliased]
  · have htype := denotes_mapped hread hbrace hopening hreadonly hgroups hparameter
    rw [inputsOfSource_eq (ofSource_inlineText henclosed htype), handler_of_mapped.1]
  · have htype := denotes_mapped hread hbrace hopening hreadonly hgroups halias
    rw [inputsOfSource_eq (ofSource_aliasText henclosed htype), handler_of_mapped.2]

/-- A documented property that may be missing, one that is only read, and a method. -/
def plainSignatures : List Signature :=
  [⟨none, ⟨.ident, "a", " /** A */ ", .start, some " A "⟩, some (ofMark "" "?"), [ofMark "" ":", ofWord " " "string"],
      some (ofMark "" ";"), some (.keyword "string"), false⟩,
    ⟨some (ofWord " " "readonly"), ofWord " " "b", none, [ofMark "" ":", ofWord " " "number"], some (ofMark "" ";"),
      some (.keyword "number"), false⟩,
    ⟨none, ofWord " " "run", none, [ofMark "" "(", ofMark "" ")", ofMark "" ":", ofWord " " "void"],
      some (ofMark "" ";"), some .other, true⟩]

/-- Their text. -/
def plainText : String := " /** A */ a?: string; readonly b: number; run(): void; "

/-- A property that is only read. -/
def readonlySignature : Signature :=
  ⟨some (ofWord " " "readonly"), ofWord " " "a", none, [ofMark "" ":", ofWord " " "string"], some (ofMark "" ";"),
    some (.keyword "string"), false⟩

@[inherit_doc plainText]
def readonlyText : String := " readonly a: string; "

theorem isSignatureList_plainText : IsSignatureList plainText plainSignatures (.ofMark " " "\x7d") where
  enclosed := ⟨by decide +kernel, by decide +kernel, by decide +kernel, rfl⟩
  read := by
    have hnext : EndsType (.ofMark "" ";") := ⟨rfl, by decide⟩
    refine ⟨?_, ?_, ?_, trivial⟩
    · constructor
      case body => exact readsAs_annotation (denotes_keyword (by decide) hnext)
      all_goals decide
    · constructor
      case body => exact readsAs_annotation (denotes_keyword (by decide) hnext)
      all_goals decide
    · constructor
      case body => exact readsAs_method (denotes_keyword (by decide) hnext)
      all_goals decide
  distinct := by decide
  foreign := by simp [plainSignatures, Mentions, within]

theorem isSignatureList_readonlyText : IsSignatureList readonlyText [readonlySignature] (.ofMark " " "\x7d") where
  enclosed := ⟨by decide +kernel, by decide +kernel, by decide +kernel, rfl⟩
  read := by
    refine ⟨?_, trivial⟩
    constructor
    case body => exact readsAs_annotation (denotes_keyword (by decide) ⟨rfl, by decide⟩)
    all_goals decide
  distinct := by decide
  foreign := by simp [readonlySignature, Mentions, within]

/-- A list that begins with another word gives its properties in all three ways, and one that begins with `readonly` only
in the interface. -/
theorem inputs_of_parameter_types_both :
    (∃ inputs : List Input, (inputs.map fun input => (input.key, input.optional)) = [("a", true), ("b", false)] ∧
      ScriptSchema.inputsOfSource (interfaceText plainText) true = .ok (some inputs) ∧
      ScriptSchema.inputsOfSource (inlineText plainText) true = .ok (some inputs) ∧
      ScriptSchema.inputsOfSource (aliasText plainText) true = .ok (some inputs)) ∧
    (∃ inputs : List Input, (inputs.map fun input => (input.key, input.optional)) = [("a", false)] ∧
      ScriptSchema.inputsOfSource (interfaceText readonlyText) true = .ok (some inputs) ∧
      ScriptSchema.inputsOfSource (inlineText readonlyText) true = .error (.resolution "handler" .notAnObjectType) ∧
      ScriptSchema.inputsOfSource (aliasText readonlyText) true = .error (.resolution "handler" .notAnObjectType)) := by
  obtain ⟨inputs, hinputs, hinterface, hplain, -⟩ := inputs_of_parameter_types isSignatureList_plainText
  obtain ⟨inputs', hinputs', hinterface', -, hmapped⟩ := inputs_of_parameter_types isSignatureList_readonlyText
  obtain ⟨hinline, halias⟩ := hplain (by decide)
  obtain ⟨hinline', halias'⟩ := hmapped (by decide) (by decide)
  exact ⟨⟨inputs, hinputs, hinterface, hinline, halias⟩, inputs', hinputs', hinterface', hinline', halias'⟩

/-- With `readonly` first the type of a parameter has no inputs, though the interface has one. -/
theorem readonly_first_is_mapped :
    IsSignatureList readonlyText [readonlySignature] (.ofMark " " "\x7d") ∧
      ScriptSchema.inputsOfSource (inlineText readonlyText) true = .error (.resolution "handler" .notAnObjectType) ∧
      ScriptSchema.inputsOfSource (aliasText readonlyText) true = .error (.resolution "handler" .notAnObjectType) ∧
      ScriptSchema.inputsOfSource (interfaceText readonlyText) true =
        .ok (some [⟨"a", .primitive .string none, false, none, none, none⟩]) := by
  have hinline : Module.ofSource (inlineText readonlyText) = .ok (inlineModule .other) := rfl
  have halias : Module.ofSource (aliasText readonlyText) = .ok (aliasModule .other) := rfl
  have hinterface : Module.ofSource (interfaceText readonlyText) =
      .ok (interfaceModule [⟨"a", false, some (.keyword "string"), none, false⟩]) := rfl
  refine ⟨isSignatureList_readonlyText, ?_, ?_, ?_⟩
  · rw [inputsOfSource_eq hinline, handler_of_mapped.1]
  · rw [inputsOfSource_eq halias, handler_of_mapped.2]
  · rw [inputsOfSource_eq hinterface]
    rfl

end AppBundler
