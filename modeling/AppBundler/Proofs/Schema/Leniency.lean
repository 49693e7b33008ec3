import AppBundler.Bundle.Prepared
import AppBundler.Proofs.Schema.Faults
/-!
# Lenient extraction

A lenient extraction answers whatever a strict one answers, for the two part only at a fault, and there the strict
one has no answer at all. Where every classification ends, a lenient extraction finds no faults.
-/

namespace AppBundler

namespace Extract

/-- Whatever a computation answers when it is strict, it answers when it is lenient. -/
def Agrees {α : Type} (f : Bool → Extracted α) : Prop := ∀ a, f true = .ok a → f false = .ok a

namespace Agrees

variable {α β : Type} {f : Bool → Extracted α}

theorem const (x : Extracted α) : Agrees fun _ => x := fun _ h => h

theorem orElse (e : ExtractError) (otherwise : α) : Agrees fun strict => orElse strict e otherwise :=
  fun _ h => nomatch h

theorem bind {g : α → Bool → Extracted β} (hf : Agrees f) (hg : ∀ a, Agrees (g a)) :
    Agrees fun strict => f strict >>= (g · strict) := by
  intro b h
  cases hstrict : f true with
  | error e =>
    simp only [hstrict] at h
    cases h
  | ok a =>
    simp only [hstrict] at h
    simp only [hf a hstrict]
    exact hg a b h

theorem map (g : α → β) (hf : Agrees f) : Agrees fun strict => (f strict).map g := by
  intro b h
  cases hstrict : f true with
  | error e =>
    simp only [hstrict] at h
    cases h
  | ok a =>
    simp only [hstrict] at h
    simp only [hf a hstrict]
    exact h

end Agrees

variable (m : Module) (name : String)

theorem rootName?_agrees : Agrees (rootName? m name) := by
  unfold rootName?
  split
  · exact Agrees.const _
  · split
    · exact Agrees.const _
    · exact Agrees.orElse _ _
    · exact Agrees.orElse _ _

theorem untypedInputs_agrees (p : Param) : Agrees (untypedInputs p name) := by
  unfold untypedInputs
  split
  · exact Agrees.const _
  · exact Agrees.const _
  · exact Agrees.const _
  · exact Agrees.orElse _ _

theorem typedInputs_agrees (p : Param) (t : TypeExpr) : Agrees (typedInputs m p t name) := by
  unfold typedInputs
  split
  · exact Agrees.const _
  · exact Agrees.orElse _ _
  · exact Agrees.const _

theorem inputsOf_agrees (sig : FunctionSig) : Agrees (inputsOf m sig name) := by
  unfold inputsOf
  split
  · exact Agrees.const _
  · split
    · exact Agrees.const _
    · split
      · exact untypedInputs_agrees name _
      · split
        · exact untypedInputs_agrees name _
        · exact typedInputs_agrees m name _ _

theorem handlerFrom_agrees (root : String) : Agrees fun strict => handlerFrom m strict root := by
  unfold handlerFrom
  split
  · exact (inputsOf_agrees m handlerExport _).map _
  · exact Agrees.orElse _ _
  · exact Agrees.orElse _ _

theorem handler_agrees : Agrees (handler m) := by
  refine (rootName?_agrees m handlerExport).bind fun found => ?_
  cases found with
  | none => exact Agrees.const _
  | some root => exact handlerFrom_agrees m root

theorem actionOf_agrees (key : String) (value : Expr) : Agrees fun strict => actionOf m strict key value := by
  unfold actionOf
  split
  · exact (inputsOf_agrees m _ _).map _
  · exact Agrees.orElse _ _
  · exact Agrees.orElse _ _

theorem actionsFrom_agrees (map : List (String × Action)) (props : List (String × Expr)) :
    Agrees fun strict => actionsFrom m strict map props := by
  induction props generalizing map with
  | nil => exact Agrees.const _
  | cons p props ih =>
    refine (actionOf_agrees m p.1 p.2).bind fun found => ?_
    cases found with
    | none => exact ih map
    | some action => exact ih _

theorem actions_agrees : Agrees (actions m) := by
  refine (rootName?_agrees m actionsExport).bind fun found => ?_
  cases found with
  | none => exact Agrees.const _
  | some root =>
    simp only
    split
    · exact (actionsFrom_agrees m [] _).bind fun _ => Agrees.const _
    · exact Agrees.orElse _ _
    · exact Agrees.orElse _ _

theorem moduleOf?_agrees (source : String) : Agrees (moduleOf? source) := by
  unfold moduleOf?
  split
  · exact Agrees.const _
  · exact Agrees.orElse _ _

end Extract

namespace ScriptSchema

open Extract

theorem ofModule_agrees (m : Module) : Agrees (ofModule m) :=
  (handler_agrees m).bind fun _ => (actions_agrees m).bind fun _ => Agrees.const _

theorem ofSource_agrees (source : String) : Agrees (ofSource source) := by
  refine (moduleOf?_agrees source).bind fun found => ?_
  cases found with
  | none => exact Agrees.const _
  | some m => exact ofModule_agrees m

/-- Where every classification ends, a lenient extraction finds no fault. -/
theorem ofModule_lenient {m : Module} (h : ¬ HasEndless m) : ∃ schema, ofModule m false = .ok schema := by
  have hfails : FailsWith (fun _ => False) (ofModule m false) := by
    refine FailsWith.bind ?_ fun inputs _ => FailsWith.bind ?_ fun map _ => FailsWith.ok _
    · rw [handler_eq]
      refine FailsWith.bind (rootName?_failsWith nofun) fun found _ => ?_
      cases found with
      | none => exact FailsWith.ok _
      | some root => exact handlerFrom_failsWith h nofun nofun
    · exact actions_failsWith (fun hendless => absurd hendless h) nofun nofun nofun nofun
  cases hschema : ofModule m false with
  | ok schema => exact ⟨schema, rfl⟩
  | error e => exact (hfails e hschema).elim

theorem ofSource_lenient {source : String} (h : ∀ m, Module.ofSource source = .ok m → ¬ HasEndless m) :
    ∃ schema, ofSource source false = .ok schema := by
  unfold ofSource fromSource moduleOf?
  cases hmodule : Module.ofSource source with
  | error e => exact ⟨.empty, rfl⟩
  | ok m => exact ofModule_lenient (h m hmodule)

/-- A script that is described is bundled with the schema that a lenient extraction gives. -/
theorem schema_ofCode {code : String} {schema : ScriptSchema} (h : ofSource code false = .ok schema)
    (filename : String) : (PreparedScript.ofCode filename code).schema = schema := by
  unfold ofSource fromSource moduleOf? at h
  unfold PreparedScript.ofCode
  cases hmodule : Module.ofSource code with
  | error e =>
    rw [hmodule] at h
    cases h
    rfl
  | ok m =>
    rw [hmodule] at h
    have hschema : ofModule m false = .ok schema := h
    simp only [hschema]

end ScriptSchema

end AppBundler
