import Mathlib.Data.Set.Card
import Mathlib.Logic.Relation
import AppBundler.Proofs.Schema.Members
/-!
# Nodes of types

The classification of a type classifies other types on its way: its parts, and the types that its members and the
definition of its name have. Each is visited inside the names that are being followed then. A classification ends
unless a visit leads back to itself, and then it goes on without end: names are let go before the members that
were found under them are visited, so a name that is being followed may be met again behind an intersection.
-/

namespace AppBundler.Classify

variable {m : Module} {node : TypeExpr → Resolving Node} {names : List String} {name : String} {t : TypeExpr}

/-! ## Leaving the names as they were -/

section Scoped

variable (hscoped : ∀ t, Scoped (node t))
include hscoped

theorem propertyNode_scoped (t : TypeExpr) : Scoped (propertyNode node t) := by
  rw [propertyNode]
  split
  · exact Scoped.pure _
  · exact hscoped t

theorem memberNode_scoped (x : Member) : Scoped (memberNode node x) := by
  rw [memberNode]
  split
  · exact propertyNode_scoped hscoped _
  · exact Scoped.pure _

theorem objectNode_scoped (ms : List Member) : Scoped (objectNode node ms) :=
  (Scoped.mapM (fun x => (memberNode_scoped hscoped x).map _) _).map _

theorem arrayNode_scoped (element : TypeExpr) : Scoped (arrayNode node element) := by
  unfold arrayNode
  split
  · split
    · exact (hscoped _).map _
    · exact (hscoped _).map _
    · exact (Scoped.mapM hscoped _).map _
  · exact (hscoped _).map _

theorem unionNode_scoped (ts : List TypeExpr) : Scoped (unionNode node ts) := by
  rw [unionNode]
  split
  · exact Scoped.pure _
  · exact hscoped _
  · exact (Scoped.mapM hscoped _).map _

theorem aliasNode_scoped (t : TypeExpr) : Scoped (aliasNode node t) := by
  rw [aliasNode]
  split
  · exact Scoped.pure _
  · exact hscoped t

theorem interfaceNode_scoped (decls : List InterfaceDecl) :
    Scoped (mergeInterfaces (objectMembers m) [] decls >>= objectNode node) :=
  (mergeInterfaces_scoped (objectMembers_scoped m) [] decls).bind (objectNode_scoped hscoped)

theorem namedNode_scoped (name : String) : Scoped (namedNode m node name) := by
  rw [namedNode]
  split
  · exact (aliasNode_scoped hscoped _).guarded _ _
  · split
    · split <;> exact Scoped.pure _
    · exact (interfaceNode_scoped hscoped _).guarded _ _

end Scoped

/-- Classifying a type leaves the names as it found them. -/
theorem nodeOf_scoped (m : Module) (n : Nat) (t : TypeExpr) : Scoped (nodeOf m n t) := by
  induction n generalizing t with
  | zero => exact Keeps.failure
  | succ n ih =>
    cases t with
    | array element => exact arrayNode_scoped ih element
    | union ts => exact unionNode_scoped ih ts
    | object ms => exact objectNode_scoped ih ms
    | intersection ts =>
      refine (objectMembers_scoped m _).bind fun found => ?_
      cases found with
      | none => exact Scoped.pure _
      | some ms => exact objectNode_scoped ih ms
    | reference name args =>
      simp only [nodeOf]
      split
      · exact arrayNode_scoped ih _
      · exact Scoped.pure _
      · exact ih _
      · exact namedNode_scoped ih name
    | _ => exact Scoped.pure _

/-! ## What is visited on the way -/

/-- The types that are visited for an array. -/
def elementTypes : TypeExpr → List TypeExpr
  | .union ts => if TypeExpr.withoutNullish ts = [] then [.union ts] else TypeExpr.withoutNullish ts
  | element => [element]

/-- The types that are visited for an object with some members. -/
def propertyTypes (ms : List Member) : List TypeExpr :=
  ((Member.fields ms).filterMap fun x => x.type).filter fun t => !isFreeText t

/-- The types that are visited for an alias. -/
def aliasTypes (t : TypeExpr) : List TypeExpr := if (literals? t).isSome then [] else [t]

theorem propertyNode_ends :
    Ends (propertyNode node t) names ↔ (isFreeText t = false → Ends (node t) names) := by
  cases h : isFreeText t <;> simp [propertyNode, h]

theorem memberNode_ends (x : Member) :
    Ends (memberNode node x) names ↔ ∀ t ∈ x.type, isFreeText t = false → Ends (node t) names := by
  rw [memberNode]
  cases x.type <;> simp [propertyNode_ends]

theorem aliasNode_ends : Ends (aliasNode node t) names ↔ ∀ u ∈ aliasTypes t, Ends (node u) names := by
  rw [aliasNode, aliasTypes]
  cases literals? t <;> simp

section Ends

variable (hscoped : ∀ t, Scoped (node t))
include hscoped

theorem objectNode_ends (ms : List Member) :
    Ends (objectNode node ms) names ↔ ∀ t ∈ propertyTypes ms, Ends (node t) names := by
  rw [objectNode, ends_map, ends_mapM fun x => (memberNode_scoped hscoped x).map _]
  simp only [ends_map, memberNode_ends, propertyTypes, List.mem_filter, List.mem_filterMap,
    Bool.not_eq_eq_eq_not, Bool.not_true]
  constructor
  · rintro h t ⟨⟨x, hx, ht⟩, htext⟩
    exact h x hx t ht htext
  · intro h x hx t ht htext
    exact h t ⟨⟨x, hx, ht⟩, htext⟩

theorem arrayNode_ends (element : TypeExpr) :
    Ends (arrayNode node element) names ↔ ∀ t ∈ elementTypes element, Ends (node t) names := by
  cases element with
  | union ts =>
    rw [arrayNode, elementTypes]
    split
    · rename_i hnone
      simp [hnone]
    · rename_i only honly
      simp [honly]
    · rename_i hnone honly
      rw [if_neg hnone, ends_map, ends_mapM hscoped]
  | _ => simp [arrayNode, elementTypes]

theorem unionNode_ends (ts : List TypeExpr) :
    Ends (unionNode node ts) names ↔ ∀ t ∈ TypeExpr.withoutNullish ts, Ends (node t) names := by
  rw [unionNode]
  split
  · rename_i hnone
    simp [hnone]
  · rename_i only honly
    simp [honly]
  · rw [ends_map, ends_mapM hscoped]

end Ends

/-- A type that is to be classified inside the definitions of some names. -/
structure Visit where
  names : List String
  type : TypeExpr

/-- The types that are visited for a name: those of its definition, unless it is being followed already. -/
def namedVisits (m : Module) (name : String) (names : List String) : List Visit :=
  if name ∈ names then []
  else
    match m.alias? name with
    | some decl => (aliasTypes decl.type).map fun t => ⟨name :: names, t⟩
    | none =>
      match m.interfaces name with
      | [] => []
      | decls =>
        (((mergeInterfaces (objectMembers m) [] decls).run' (name :: names)).elim [] propertyTypes).map
          fun t => ⟨name :: names, t⟩

namespace Visit

/-- What is visited next. -/
def next (m : Module) (v : Visit) : List Visit :=
  match v.type with
  | .array element => (elementTypes element).map fun t => ⟨v.names, t⟩
  | .union ts => (TypeExpr.withoutNullish ts).map fun t => ⟨v.names, t⟩
  | .object ms => (propertyTypes ms).map fun t => ⟨v.names, t⟩
  | .intersection ts =>
    (((objectMembers m (.intersection ts)).run' v.names).join.elim [] propertyTypes).map fun t => ⟨v.names, t⟩
  | .reference name args =>
    match builtIn? name args with
    | some (.array element) => (elementTypes element).map fun t => ⟨v.names, t⟩
    | some (.known _) => []
    | some (.same arg) => [⟨v.names, arg⟩]
    | none => namedVisits m name v.names
  | _ => []

/-- The classification ends at some depth. -/
def EndsAt (m : Module) (n : Nat) (v : Visit) : Prop := Ends (nodeOf m n v.type) v.names

end Visit

theorem interfaceNode_ends (hscoped : ∀ t, Scoped (node t)) (decls : List InterfaceDecl) :
    Ends (mergeInterfaces (objectMembers m) [] decls >>= objectNode node) names ↔
      ∀ t ∈ ((mergeInterfaces (objectMembers m) [] decls).run' names).elim [] propertyTypes, Ends (node t) names := by
  obtain ⟨ms, hms⟩ : Ends (mergeInterfaces (objectMembers m) [] decls) names :=
    mergeInterfaces_ends (objectMembers_scoped m) fun _ _ _ _ => objectMembers_ends m _ names
  rw [ends_bind (mergeInterfaces_scoped (objectMembers_scoped m) [] decls), StateT.run'_eq, hms]
  simp [objectNode_ends hscoped]

theorem namedNode_ends (hscoped : ∀ t, Scoped (node t)) :
    Ends (namedNode m node name) names ↔ ∀ w ∈ namedVisits m name names, Ends (node w.type) w.names := by
  rw [namedNode, namedVisits]
  cases m.alias? name with
  | some decl =>
    simp only
    rw [ends_guarded _ _ (aliasNode_scoped hscoped decl.type), aliasNode_ends]
    by_cases hname : name ∈ names <;> simp [hname]
  | none =>
    cases m.interfaces name with
    | nil => cases m.enum? name <;> simp
    | cons decl decls =>
      simp only
      rw [ends_guarded _ _ (interfaceNode_scoped hscoped _), interfaceNode_ends hscoped]
      by_cases hname : name ∈ names <;> simp [hname]

/-- A classification ends when all that is visited next ends, with one less depth. -/
theorem Visit.endsAt_succ (m : Module) (n : Nat) (v : Visit) : v.EndsAt m (n + 1) ↔ ∀ w ∈ v.next m, w.EndsAt m n := by
  have hscoped := nodeOf_scoped m n
  obtain ⟨names, t⟩ := v
  unfold Visit.EndsAt
  cases t with
  | array element => simp [nodeOf, Visit.next, arrayNode_ends hscoped]
  | union ts => simp [nodeOf, Visit.next, unionNode_ends hscoped]
  | object ms => simp [nodeOf, Visit.next, objectNode_ends hscoped]
  | intersection ts =>
    obtain ⟨found, hfound⟩ := objectMembers_ends m (.intersection ts) names
    simp only [nodeOf, Visit.next]
    rw [ends_bind (objectMembers_scoped m _), StateT.run'_eq, hfound]
    cases found <;> simp [objectNode_ends hscoped]
  | reference name args =>
    simp only [nodeOf, Visit.next]
    cases builtIn? name args with
    | none => exact namedNode_ends hscoped
    | some known => cases known <;> simp [arrayNode_ends hscoped]
  | _ => simp [nodeOf, Visit.next]

end AppBundler.Classify
