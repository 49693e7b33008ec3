import AppBundler.Proofs.Schema.Faults
import AppBundler.Proofs.Schema.Wire
/-!
# Schemas are read back, but for defaults that are null

The JSON of a schema leaves out what an input does not have, and what is left out is read as missing. A default
value may be any JSON, so it may be `null`, which is written and then read as missing. All else of a schema that
was extracted is read back: its actions stand in the order of their names, as the ones that are read do.
-/

namespace AppBundler

theorem map_eq_self_iff {α : Type} {f : α → α} {l : List α} : l.map f = l ↔ ∀ a ∈ l, f a = a := by
  simpa using List.map_inj_left (l := l) (f := f) (g := id)

/-! ## Reading back -/

/-- The input without a default value that is null. -/
def Input.withoutNull (i : Input) : Input := { i with defaultValue := readValue i.defaultValue }

/-- The action without default values that are null. -/
def Action.withoutNull (a : Action) : Action := { a with inputs := a.inputs.map Input.withoutNull }

namespace ScriptSchema

/-- The schema without default values that are null. -/
def withoutNull (s : ScriptSchema) : ScriptSchema where
  handler := s.handler.map fun inputs => inputs.map Input.withoutNull
  actions := s.actions.map fun actions => actions.map fun (name, a) => (name, a.withoutNull)

/-- All inputs that a schema describes. -/
def inputs (s : ScriptSchema) : List Input :=
  s.handler.getD [] ++ (s.actions.getD []).flatMap fun (_, a) => a.inputs

end ScriptSchema

namespace Input

/-- An input is read back but for a default value that is null. -/
theorem ofJson?_toJson (i : Input) : ofJson? i.toJson = some i.withoutNull := by
  obtain ⟨key, node, optional, name, description, value⟩ := i
  cases name <;> cases description <;> cases value <;>
    simp [ofJson?, toJson, ofFields?, optionalMember, Json.lookup, Json.string?, Json.bool?, Node.readOption?,
      Node.ofJson?_toJson, withoutNull]

theorem listOfJson?_listToJson (inputs : List Input) :
    listOfJson? (listToJson inputs) = some (inputs.map withoutNull) :=
  mapM_map_eq_map fun i _ => i.ofJson?_toJson

theorem withoutNull_eq_self_iff {i : Input} : i.withoutNull = i ↔ i.defaultValue ≠ some .null := by
  obtain ⟨key, node, optional, name, description, value⟩ := i
  simp only [withoutNull, mk.injEq, true_and]
  constructor
  · rintro h rfl
    cases h
  · intro h
    rw [readValue]
    rintro rfl
    exact h rfl

end Input

namespace Action

theorem ofJson?_toJson (a : Action) : ofJson? a.toJson = some a.withoutNull := by
  simp [ofJson?, toJson, Json.lookup, Json.string?, Input.listOfJson?_listToJson, withoutNull]

theorem withoutNull_eq_self_iff {a : Action} :
    a.withoutNull = a ↔ ∀ i ∈ a.inputs, i.defaultValue ≠ some .null := by
  obtain ⟨name, inputs⟩ := a
  simp only [withoutNull, mk.injEq, true_and, map_eq_self_iff, Input.withoutNull_eq_self_iff]

end Action

namespace ScriptSchema

variable {s : ScriptSchema}

theorem readHandler?_handlerJson (s : ScriptSchema) :
    readHandler? (some s.handlerJson) = some s.withoutNull.handler := by
  obtain ⟨handler, actions⟩ := s
  cases handler with
  | none => rfl
  | some inputs =>
    have hread := Input.listOfJson?_listToJson inputs
    rw [Input.listToJson] at hread
    simp [handlerJson, readHandler?, Input.listToJson, hread, withoutNull]

/-- Actions in the order of their names are read back. -/
theorem readActions?_actionsJson (h : ∀ actions ∈ s.actions, InKeyOrder actions) :
    readActions? (some s.actionsJson) = some s.withoutNull.actions := by
  obtain ⟨handler, actions⟩ := s
  cases actions with
  | none => rfl
  | some actions =>
    have hread : (actions.map fun p => (p.1, p.2.toJson)).mapM
        (fun p => (Action.ofJson? p.2).map fun a => (p.1, a)) = some (actions.map fun p => (p.1, p.2.withoutNull)) :=
      mapM_map_eq_map fun p _ => by simp [p.2.ofJson?_toJson]
    have horder : InKeyOrder (actions.map fun p => (p.1, p.2.withoutNull)) := List.pairwise_map.mpr (h actions rfl)
    calc readActions? (some (actionsJson ⟨handler, some actions⟩))
      _ = ((actions.map fun p => (p.1, p.2.toJson)).mapM fun p => (Action.ofJson? p.2).map fun a => (p.1, a)).bind
            fun read => some (some (read.foldl (fun map p => putSorted p.1 p.2 map) [])) := rfl
      _ = some (some ((actions.map fun p => (p.1, p.2.withoutNull)).foldl (fun map p => putSorted p.1 p.2 map) [])) := by
        rw [hread, Option.bind_some]
      _ = some (some (actions.map fun p => (p.1, p.2.withoutNull))) :=
        congrArg (fun map => some (some map)) horder.foldl_putSorted

theorem ofJson?_toJson (h : ∀ actions ∈ s.actions, InKeyOrder actions) :
    ofJson? s.toJson = some s.withoutNull := by
  simp [ofJson?, toJson, Json.lookup, readHandler?_handlerJson, readActions?_actionsJson h]

theorem withoutNull_eq_self_iff : s.withoutNull = s ↔ ∀ i ∈ s.inputs, i.defaultValue ≠ some .null := by
  obtain ⟨handler, actions⟩ := s
  have hhandler : (handler.map fun inputs => inputs.map Input.withoutNull) = handler ↔
      ∀ i ∈ handler.getD [], i.defaultValue ≠ some .null := by
    cases handler with
    | none => simp
    | some inputs => simp [map_eq_self_iff, Input.withoutNull_eq_self_iff]
  have hactions : (actions.map fun actions => actions.map fun (name, a) => (name, a.withoutNull)) = actions ↔
      ∀ i ∈ (actions.getD []).flatMap fun (_, a) => a.inputs, i.defaultValue ≠ some .null := by
    cases actions with
    | none => simp
    | some actions =>
      have hmem : (∀ i ∈ actions.flatMap fun (_, a) => a.inputs, i.defaultValue ≠ some .null) ↔
          ∀ p ∈ actions, p.2.withoutNull = p.2 := by
        simp only [Action.withoutNull_eq_self_iff, List.mem_flatMap]
        exact ⟨fun h p hp i hi => h i ⟨p, hp, hi⟩, fun h i ⟨p, hp, hi⟩ => h p hp i hi⟩
      rw [Option.getD_some, hmem, Option.map_some, Option.some_inj, map_eq_self_iff]
      exact forall₂_congr fun p _ => by simp [Prod.ext_iff]
  rw [withoutNull, mk.injEq, inputs, List.forall_mem_append]
  exact and_congr hhandler hactions

end ScriptSchema

/-! ## Schemas of scripts -/

namespace Extract

/-- Whatever a computation answers has the property. -/
def Gives {α : Type} (P : α → Prop) (x : Extracted α) : Prop := ∀ a, x = .ok a → P a

namespace Gives

variable {α β : Type} {P : α → Prop} {Q : β → Prop} {strict : Bool}

theorem ok {a : α} (h : P a) : Gives P (.ok a : Extracted α) := by
  rintro _ ⟨⟩
  exact h

theorem error (e : ExtractError) : Gives P (.error e) := fun _ h => nomatch h

theorem bind {x : Extracted α} {f : α → Extracted β} (h : ∀ a, x = .ok a → Gives Q (f a)) : Gives Q (x >>= f) := by
  cases x with
  | error e => exact error e
  | ok a => exact h a rfl

theorem orElse (e : ExtractError) {otherwise : α} (h : P otherwise) : Gives P (orElse strict e otherwise) := by
  cases strict with
  | true => exact error e
  | false => exact ok h

end Gives

variable {m : Module} {strict : Bool}

/-- Actions are added in the order of their names. -/
theorem actionsFrom_inKeyOrder {map : List (String × Action)} (h : InKeyOrder map) (props : List (String × Expr)) :
    Gives InKeyOrder (actionsFrom m strict map props) := by
  induction props generalizing map with
  | nil => exact Gives.ok h
  | cons p props ih =>
    obtain ⟨key, value⟩ := p
    rw [actionsFrom]
    refine Gives.bind fun found _ => ?_
    cases found with
    | none => exact ih h
    | some a => exact ih (h.putSorted key a)

/-- The actions of a module stand in the order of their names. -/
theorem actions_inKeyOrder (m : Module) (strict : Bool) :
    Gives (fun found => ∀ actions ∈ found, InKeyOrder actions) (actions m strict) := by
  refine Gives.bind fun found _ => ?_
  cases found with
  | none => exact Gives.ok nofun
  | some root =>
    simp only
    split
    · rename_i props _
      refine Gives.bind fun map hmap => Gives.ok ?_
      split
      · exact nofun
      · rintro _ ⟨⟩
        exact actionsFrom_inKeyOrder List.Pairwise.nil props map hmap
    · exact Gives.orElse _ nofun
    · exact Gives.orElse _ nofun

end Extract

namespace ScriptSchema

open Extract

/-- The actions of a script stand in the order of their names. -/
theorem ofSource_inKeyOrder (source : String) (strict : Bool) :
    Gives (fun s => ∀ actions ∈ s.actions, InKeyOrder actions) (ofSource source strict) := by
  refine Gives.bind fun module? _ => ?_
  cases module? with
  | none => exact Gives.ok nofun
  | some m =>
    refine Gives.bind fun handler _ => Gives.bind fun actions hactions => Gives.ok ?_
    exact actions_inKeyOrder m strict actions hactions

/-- **The schema of a script is read back** just when no input of its handler or of an action has the default value
`null`. In any case all is read but those default values, which are taken to be missing. -/
theorem ofJson?_toJson_iff_no_null {source : String} {strict : Bool} {s : ScriptSchema}
    (h : ofSource source strict = .ok s) :
    (ofJson? s.toJson = some s ↔ ∀ i ∈ s.inputs, i.defaultValue ≠ some .null) ∧
      ofJson? s.toJson = some s.withoutNull := by
  have hread := ofJson?_toJson (ofSource_inKeyOrder source strict s h)
  refine ⟨?_, hread⟩
  rw [hread, Option.some_inj, withoutNull_eq_self_iff]

/-- The schema of a handler that takes a pattern with one key and a default for it. -/
def ofLimit (value : Option Json) : ScriptSchema := ⟨some [⟨"limit", .any, true, none, none, value⟩], none⟩

/-- A default that is a number is read back. -/
theorem ofJson?_toJson_iff_no_null_number :
    ofSource "export function handler(\x7b limit = 3 \x7d) \x7b\x7d" true = .ok (ofLimit (some (.int 3))) ∧
      ofJson? (ofLimit (some (.int 3))).toJson = some (ofLimit (some (.int 3))) := by
  have hsource : ofSource "export function handler(\x7b limit = 3 \x7d) \x7b\x7d" true = .ok (ofLimit (some (.int 3))) :=
    rfl
  refine ⟨hsource, (ofJson?_toJson_iff_no_null hsource).1.mpr fun i hi => ?_⟩
  cases List.mem_singleton.mp hi
  exact nofun

/-- A default that is `null` is written and then read as missing. -/
theorem null_default_lost :
    ofSource "export function handler(\x7b limit = null \x7d) \x7b\x7d" true = .ok (ofLimit (some .null)) ∧
      ofJson? (ofLimit (some .null)).toJson = some (ofLimit none) ∧
        ofJson? (ofLimit (some .null)).toJson ≠ some (ofLimit (some .null)) := by
  refine ⟨rfl, rfl, fun h => ?_⟩
  have hlost : some (ofLimit none) = some (ofLimit (some .null)) := h
  simp [ofLimit] at hlost

end ScriptSchema

end AppBundler
