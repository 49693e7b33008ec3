import AppBundler.Proofs.Json.Collections
import AppBundler.Proofs.Schema.Nodes
import AppBundler.Schema.Extract
/-!
# Faults of an extraction

An extraction fails for a name in two ways. What cannot be told about the name is reported when the extraction is
strict, and a type whose classification does not end is reported always. Every function that is described stands in
the module, so the second happens only where a type of the module is such a type.
-/

namespace AppBundler

/-! ## The functions and the types of a module -/

namespace Expr

mutual

/-- The functions in an expression. -/
def signatures : Expr → List FunctionSig
  | .function sig => [sig]
  | .call callee args => callee.signatures ++ signaturesInAll args
  | .member whole _ => whole.signatures
  | .object props => signaturesInProps props
  | .ident _ => []
  | .literal _ => []
  | .other => []

/-- The functions in some expressions. -/
def signaturesInAll : List Expr → List FunctionSig
  | [] => []
  | e :: r => e.signatures ++ signaturesInAll r

/-- The functions in the values of properties. -/
def signaturesInProps : List (String × Expr) → List FunctionSig
  | [] => []
  | p :: r => signaturesInProp p ++ signaturesInProps r

/-- The functions in the value of a property. -/
def signaturesInProp : String × Expr → List FunctionSig
  | (_, value) => value.signatures

end

variable {e passed : Expr} {sig : FunctionSig} {props : List (String × Expr)}

theorem mem_signaturesInProps : sig ∈ signaturesInProps props ↔ ∃ p ∈ props, sig ∈ p.2.signatures := by
  induction props with
  | nil => simp [signaturesInProps]
  | cons p props ih =>
    obtain ⟨key, value⟩ := p
    simp [signaturesInProps, signaturesInProp, ih]

/-- What a call passes on stands in the call. -/
theorem signatures_of_passedOn (h : e.passedOn = some passed) : passed.signatures ⊆ e.signatures := by
  induction e using Expr.passedOn.induct with
  | case1 callee first rest ih =>
    rw [Expr.passedOn] at h
    intro sig hsig
    rw [signatures, signaturesInAll]
    exact List.mem_append_right _ (List.mem_append_left _ (ih h hsig))
  | case2 callee =>
    rw [Expr.passedOn] at h
    cases h
  | case3 e hcall hempty =>
    rw [Expr.passedOn.eq_3 e hcall hempty] at h
    obtain rfl := Option.some.inj h
    exact List.Subset.refl _

end Expr

/-- The types of the parameters of a function, with the types in them. -/
def FunctionSig.types (sig : FunctionSig) : List TypeExpr := sig.params.flatMap fun p => TypeExpr.withinOption p.type

namespace Module

/-- The functions of a module that a name may lead to. -/
def signatures (m : Module) : List FunctionSig :=
  m.items.flatMap fun
    | .function f => [f.sig]
    | .variable v => v.init.elim [] Expr.signatures
    | _ => []

/-- The types of a module: those that it declares and those of its functions' parameters, with the types in them. -/
def types (m : Module) : List TypeExpr := m.declaredTypes ++ m.signatures.flatMap FunctionSig.types

variable {m : Module} {name root : String} {sig : FunctionSig} {e : Expr} {props : List (String × Expr)}

theorem mem_items_of_function {f : FunctionDecl} (h : m.binding? name = some (.function f)) : .function f ∈ m.items := by
  obtain ⟨item, hitem, heq⟩ := List.exists_of_findSome?_eq_some h
  cases item <;> simp at heq
  obtain ⟨-, rfl⟩ := heq
  exact hitem

theorem mem_items_of_variable {v : VariableDecl} (h : m.binding? name = some (.variable v)) : .variable v ∈ m.items := by
  obtain ⟨item, hitem, heq⟩ := List.exists_of_findSome?_eq_some h
  cases item <;> simp at heq
  obtain ⟨-, rfl⟩ := heq
  exact hitem

theorem signatures_of_function {f : FunctionDecl} (h : m.binding? name = some (.function f)) : f.sig ∈ m.signatures :=
  List.mem_flatMap.mpr ⟨_, mem_items_of_function h, List.mem_singleton_self _⟩

theorem signatures_of_variable {v : VariableDecl} (h : m.binding? name = some (.variable v)) (he : v.init = some e) :
    e.signatures ⊆ m.signatures := by
  intro sig hsig
  refine List.mem_flatMap.mpr ⟨_, mem_items_of_variable h, ?_⟩
  simpa [he] using hsig

theorem types_of_signature (h : sig ∈ m.signatures) : sig.types ⊆ m.types := fun _ ht =>
  List.mem_append_right _ (List.mem_flatMap.mpr ⟨sig, h, ht⟩)

end Module

/-! ## What following a name finds -/

namespace Chase

variable {α : Type} {step : String → Step α} {found : α} {m : Module} {name : String} {sig : FunctionSig} {e : Expr}
  {props : List (String × Expr)}

/-- What is found was found by a step. -/
theorem exists_of_follow {n : Nat} {visited : List String} (h : follow step n visited name = .ok (some found)) :
    ∃ name, step name = .found found := by
  induction n generalizing visited name with
  | zero => cases h
  | succ n ih =>
    rw [follow] at h
    split at h
    · cases h
    · split at h
      · rename_i value hstep
        cases h
        exact ⟨name, hstep⟩
      · cases h
      · exact ih h

theorem mem_signatures_of_functionStepOf (h : functionStepOf e = .found sig) : sig ∈ e.signatures := by
  rw [functionStepOf] at h
  split at h
  · rename_i passed hpassed
    cases h
    exact Expr.signatures_of_passedOn hpassed (by simp [Expr.signatures])
  · cases h
  · cases h

theorem mem_signatures_of_functionStep (h : functionStep m name = .found sig) : sig ∈ m.signatures := by
  rw [functionStep] at h
  split at h
  · rename_i f hbinding
    cases h
    exact Module.signatures_of_function hbinding
  · rename_i v hbinding
    cases hinit : v.init with
    | none => simp [hinit] at h
    | some e =>
      rw [hinit] at h
      exact Module.signatures_of_variable hbinding hinit (mem_signatures_of_functionStepOf h)
  · cases h

theorem signatures_of_objectStepOf (h : objectStepOf e = .found props) : ∀ p ∈ props, p.2.signatures ⊆ e.signatures := by
  rw [objectStepOf] at h
  split at h
  · rename_i passed hpassed
    cases h
    intro p hp sig hsig
    refine Expr.signatures_of_passedOn hpassed ?_
    rw [Expr.signatures]
    exact Expr.mem_signaturesInProps.mpr ⟨p, hp, hsig⟩
  · cases h
  · cases h

theorem signatures_of_objectStep (h : objectStep m name = .found props) : ∀ p ∈ props, p.2.signatures ⊆ m.signatures := by
  rw [objectStep] at h
  split at h
  · rename_i v hbinding
    cases hinit : v.init with
    | none => simp [hinit] at h
    | some e =>
      rw [hinit] at h
      intro p hp
      exact List.Subset.trans (signatures_of_objectStepOf h p hp) (Module.signatures_of_variable hbinding hinit)
  · cases h

end Chase

namespace Module

variable {m : Module} {root : String} {sig : FunctionSig} {e : Expr} {props : List (String × Expr)}

theorem mem_signatures_of_resolveFunction (h : m.resolveFunction root = .ok (some sig)) : sig ∈ m.signatures := by
  obtain ⟨name, hstep⟩ := Chase.exists_of_follow h
  exact Chase.mem_signatures_of_functionStep hstep

theorem mem_signatures_of_resolveExpr (he : e.signatures ⊆ m.signatures) (h : m.resolveExpr e = .ok (some sig)) :
    sig ∈ m.signatures := by
  rw [resolveExpr] at h
  split at h
  · rename_i found hstep
    cases h
    exact he (Chase.mem_signatures_of_functionStepOf hstep)
  · cases h
  · exact mem_signatures_of_resolveFunction h

theorem signatures_of_resolveObject (h : m.resolveObject root = .ok (some props)) :
    ∀ p ∈ props, p.2.signatures ⊆ m.signatures := by
  obtain ⟨name, hstep⟩ := Chase.exists_of_follow h
  exact Chase.signatures_of_objectStep hstep

end Module

/-! ## Failing -/

namespace Extract

/-- Whenever a computation fails, it does so with an error that has a property. -/
def FailsWith {α : Type} (P : ExtractError → Prop) (x : Extracted α) : Prop := ∀ e, x = .error e → P e

variable {α β : Type} {P : ExtractError → Prop} {m : Module} {name root : String} {strict : Bool}

namespace FailsWith

theorem ok (a : α) : FailsWith P (.ok a : Extracted α) := fun _ h => nomatch h

theorem error {e : ExtractError} (he : P e) : FailsWith P (.error e : Extracted α) := by
  rintro _ ⟨⟩
  exact he

theorem bind {x : Extracted α} {f : α → Extracted β} (hx : FailsWith P x) (hf : ∀ a, x = .ok a → FailsWith P (f a)) :
    FailsWith P (x >>= f) := by
  cases x with
  | error e => exact error (hx e rfl)
  | ok a => exact hf a rfl

theorem map {x : Extracted α} {f : α → β} (hx : FailsWith P x) : FailsWith P (x.map f) := by
  cases x with
  | error e => exact error (hx e rfl)
  | ok a => exact ok (f a)

theorem orElse {e : ExtractError} {otherwise : α} (he : strict = true → P e) :
    FailsWith P (orElse strict e otherwise) := by
  cases strict with
  | false => exact ok otherwise
  | true => exact error (he rfl)

end FailsWith

/-- The module has a type without a node, for the classification of the type does not end. -/
def HasEndless (m : Module) : Prop := ∃ t ∈ m.types, m.nodeOf t = none

theorem nodeOf_of_propertyNodeOf {t : TypeExpr} (h : m.propertyNodeOf t = none) : m.nodeOf t = none := by
  rw [Module.propertyNodeOf, Classify.propertyNode] at h
  split at h
  · cases h
  · exact h

theorem exists_of_inputOf {p : Pattern} {x : Member} (h : inputOf m p x = none) : ∃ t ∈ x.type, m.nodeOf t = none := by
  cases htype : x.type with
  | none => simp [inputOf, htype] at h
  | some t =>
    refine ⟨t, rfl, nodeOf_of_propertyNodeOf (Option.eq_none_iff_forall_ne_some.mpr ?_)⟩
    simpa [inputOf, htype] using h

/-- Where the inputs under a type cannot be told for want of an end, a type of the module is to blame. -/
theorem typedInputs_failsWith {p : Param} {t : TypeExpr} (ht : ∀ u ∈ t.within, u ∈ m.types)
    (hendless : HasEndless m → P (.endlessType name)) (hfault : strict = true → ∀ f, P (.resolution name f)) :
    FailsWith P (typedInputs m p t name strict) := by
  have hfinds : Classify.FindsIn (· ∈ m.types) (Classify.objectMembers m t) :=
    Classify.membersOf_findsIn (fun _ hu => List.mem_append_left _ hu) _ t ht
  rw [typedInputs]
  split
  · -- Members are always told.
    rename_i hnone
    obtain ⟨found, hfound⟩ := Classify.objectMembers_ends m t []
    rw [Module.membersOf, StateT.run'_eq, hfound] at hnone
    cases hnone
  · exact FailsWith.orElse fun hstrict => hfault hstrict _
  · rename_i ms hms
    split
    · rename_i hnone
      obtain ⟨x, hx, hinput⟩ := mapM_eq_none_iff.mp hnone
      obtain ⟨u, hu, hnode⟩ := exists_of_inputOf hinput
      exact FailsWith.error (hendless ⟨u, hfinds.of_run' hms ms rfl x hx u hu, hnode⟩)
    · exact FailsWith.ok _

theorem untypedInputs_failsWith {p : Param} (hfault : strict = true → ∀ f, P (.resolution name f)) :
    FailsWith P (untypedInputs p name strict) := by
  rw [untypedInputs]
  split
  · exact FailsWith.ok _
  · exact FailsWith.ok _
  · exact FailsWith.ok _
  · exact FailsWith.orElse fun hstrict => hfault hstrict _

/-- **The faults of a function**: its inputs cannot be told, or a type of the module has no node. -/
theorem inputsOf_failsWith {sig : FunctionSig} (hsig : sig ∈ m.signatures)
    (hendless : HasEndless m → P (.endlessType name)) (hfault : strict = true → ∀ f, P (.resolution name f)) :
    FailsWith P (inputsOf m sig name strict) := by
  rw [inputsOf]
  split
  · exact FailsWith.ok _
  · rename_i p params hparams
    split
    · exact FailsWith.ok _
    · split
      · exact untypedInputs_failsWith hfault
      · rename_i t htype
        split
        · exact untypedInputs_failsWith hfault
        · refine typedInputs_failsWith (fun u hu => Module.types_of_signature hsig ?_) hendless hfault
          refine List.mem_flatMap.mpr ⟨p, hparams ▸ List.mem_cons_self, ?_⟩
          rw [htype]
          exact hu

/-- The inputs of the handler, told from a local name. -/
def handlerFrom (m : Module) (strict : Bool) (root : String) : Extracted (Option (List Input)) :=
  match m.resolveFunction root with
  | .ok (some sig) => (inputsOf m sig handlerExport strict).map some
  | .ok none => orElse strict (.resolution handlerExport .notAFunction) (some [])
  | .error c => orElse strict (.cycle c) (some [])

theorem handlerFrom_failsWith (hendless : HasEndless m → P (.endlessType handlerExport))
    (hfault : strict = true → ∀ f, P (.resolution handlerExport f)) (hcycle : strict = true → ∀ c, P (.cycle c)) :
    FailsWith P (handlerFrom m strict root) := by
  rw [handlerFrom]
  split
  · rename_i sig hsig
    exact (inputsOf_failsWith (Module.mem_signatures_of_resolveFunction hsig) hendless hfault).map
  · exact FailsWith.orElse fun hstrict => hfault hstrict _
  · exact FailsWith.orElse fun hstrict => hcycle hstrict _

theorem rootName?_failsWith (hshape : strict = true → ∀ f, P (.exportShape name f)) :
    FailsWith P (rootName? m name strict) := by
  rw [rootName?]
  split
  · exact FailsWith.ok _
  · split
    · exact FailsWith.ok _
    · exact FailsWith.orElse fun hstrict => hshape hstrict _
    · exact FailsWith.orElse fun hstrict => hshape hstrict _

/-- The handler is told from the name that the export is bound to. -/
theorem handler_eq (m : Module) (strict : Bool) :
    handler m strict = rootName? m handlerExport strict >>= fun
      | none => .ok none
      | some root => handlerFrom m strict root := rfl

/-- The name of an action in a report. -/
def actionName (key : String) : String := actionsExport ++ "." ++ key

theorem actionOf_failsWith {key : String} {value : Expr} (hvalue : value.signatures ⊆ m.signatures)
    (hendless : HasEndless m → P (.endlessType (actionName key)))
    (hfault : strict = true → ∀ f, P (.resolution (actionName key) f)) (hcycle : strict = true → ∀ c, P (.cycle c)) :
    FailsWith P (actionOf m strict key value) := by
  rw [actionOf]
  split
  · rename_i sig hsig
    exact (inputsOf_failsWith (Module.mem_signatures_of_resolveExpr hvalue hsig) hendless hfault).map
  · exact FailsWith.orElse fun hstrict => hfault hstrict _
  · exact FailsWith.orElse fun hstrict => hcycle hstrict _

theorem actionsFrom_failsWith {map : List (String × Action)} {props : List (String × Expr)}
    (hprops : ∀ p ∈ props, p.2.signatures ⊆ m.signatures) (hendless : HasEndless m → ∀ key, P (.endlessType (actionName key)))
    (hfault : strict = true → ∀ key f, P (.resolution (actionName key) f)) (hcycle : strict = true → ∀ c, P (.cycle c)) :
    FailsWith P (actionsFrom m strict map props) := by
  induction props generalizing map with
  | nil => exact FailsWith.ok _
  | cons p props ih =>
    obtain ⟨key, value⟩ := p
    obtain ⟨hvalue, hrest⟩ := List.forall_mem_cons.mp hprops
    rw [actionsFrom]
    refine FailsWith.bind (actionOf_failsWith hvalue (hendless · key) (hfault · key) hcycle) fun found _ => ?_
    cases found with
    | none => exact ih hrest
    | some action => exact ih hrest

/-- **The faults of the actions**: of their export, of each of them, or a type of the module has no node. -/
theorem actions_failsWith (hendless : HasEndless m → ∀ key, P (.endlessType (actionName key)))
    (hshape : strict = true → ∀ f, P (.exportShape actionsExport f))
    (hobject : strict = true → ∀ f, P (.resolution actionsExport f))
    (hfault : strict = true → ∀ key f, P (.resolution (actionName key) f)) (hcycle : strict = true → ∀ c, P (.cycle c)) :
    FailsWith P (actions m strict) := by
  refine FailsWith.bind (rootName?_failsWith hshape) fun found _ => ?_
  cases found with
  | none => exact FailsWith.ok _
  | some root =>
    simp only
    split
    · rename_i props hprops
      exact (actionsFrom_failsWith (Module.signatures_of_resolveObject hprops) hendless hfault hcycle).bind
        fun _ _ => FailsWith.ok _
    · exact FailsWith.orElse fun hstrict => hobject hstrict _
    · exact FailsWith.orElse fun hstrict => hcycle hstrict _

end Extract

end AppBundler
