import AppBundler.Proofs.Schema.Nodes
/-!
# Members and nodes agree

The members of a type and its node are told by two recursions. Each follows the names of aliases and interfaces
with its own guard, and each has its own depth. They take the same way all the same: a type has members where its
node is an object, and the node has the keys of the members in their order. Only a declaration that has the name of
a built-in type parts them, for a node never looks behind such a name.
-/

namespace AppBundler

/-! ## Members that hold data -/

namespace Member

/-- None of some members is a method. -/
def HoldData (ms : List Member) : Prop := ∀ x ∈ ms, x.method = false

namespace HoldData

variable {ms into : List Member}

theorem fields (ms : List Member) : HoldData (fields ms) := by
  intro x hx
  simpa using (List.mem_filter.mp hx).2

/-- Members that hold data are all kept. -/
theorem fields_eq (h : HoldData ms) : Member.fields ms = ms :=
  List.filter_eq_self.mpr fun x hx => by simp [h x hx]

theorem withOptional (h : HoldData ms) (optional : Bool) : HoldData (withOptional optional ms) := by
  intro x hx
  obtain ⟨y, hy, rfl⟩ := List.mem_map.mp hx
  exact h y hy

theorem put {x : Member} (hx : x.method = false) (h : HoldData ms) : HoldData (put x ms) := by
  induction ms with
  | nil => exact List.forall_mem_cons.mpr ⟨hx, h⟩
  | cons y ms ih =>
    obtain ⟨hy, hms⟩ := List.forall_mem_cons.mp h
    rw [Member.put]
    split
    · exact List.forall_mem_cons.mpr ⟨hx, hms⟩
    · exact List.forall_mem_cons.mpr ⟨hy, ih hms⟩

theorem merge (hinto : HoldData into) (h : HoldData ms) : HoldData (merge into ms) := by
  induction ms generalizing into with
  | nil => exact hinto
  | cons x ms ih =>
    obtain ⟨hx, hms⟩ := List.forall_mem_cons.mp h
    exact ih (hinto.put hx) hms

end HoldData

end Member

namespace Node

/-- The keys of an object's properties. -/
def propertyKeys? : Node → Option (List String)
  | .object properties => some (properties.map Prod.fst)
  | _ => none

end Node

namespace Classify

variable {m : Module} {name : String} {acc : List Member}

/-! ## Members at two depths -/

/-- The same members, which hold data, or none in both. -/
def SameFields (found found' : Option (List Member)) : Prop := found = found' ∧ ∀ ms ∈ found, Member.HoldData ms

theorem SameFields.none : SameFields none none := ⟨rfl, fun _ h => nomatch h⟩

theorem SameFields.some {ms : List Member} (h : Member.HoldData ms) : SameFields (some ms) (some ms) :=
  ⟨rfl, by simpa using h⟩

section Together

variable {members members' : TypeExpr → Resolving (Option (List Member))}
  (hmembers : ∀ t, Related SameFields (members t) (members' t))
include hmembers

theorem mergeParts_related (ts : List TypeExpr) (hacc : Member.HoldData acc) :
    Related SameFields (mergeParts members acc ts) (mergeParts members' acc ts) := by
  induction ts generalizing acc with
  | nil => exact Related.pure (SameFields.some hacc)
  | cons t ts ih =>
    refine (hmembers t).bind ?_
    rintro found _ ⟨rfl, hfound⟩
    cases found with
    | none => exact Related.pure SameFields.none
    | some ms => exact ih (hacc.merge (hfound ms rfl))

theorem mergeBases_related (bases : List String) (hacc : Member.HoldData acc) :
    Related (fun ms ms' => ms = ms' ∧ Member.HoldData ms) (mergeBases members acc bases)
      (mergeBases members' acc bases) := by
  induction bases generalizing acc with
  | nil => exact Related.pure ⟨rfl, hacc⟩
  | cons base bases ih =>
    refine (hmembers (.reference base [])).bind ?_
    rintro found _ ⟨rfl, hfound⟩
    cases found with
    | none => exact ih hacc
    | some ms => exact ih (hacc.merge (hfound ms rfl))

theorem mergeInterfaces_related (decls : List InterfaceDecl) (hacc : Member.HoldData acc) :
    Related (fun ms ms' => ms = ms' ∧ Member.HoldData ms) (mergeInterfaces members acc decls)
      (mergeInterfaces members' acc decls) := by
  induction decls generalizing acc with
  | nil => exact Related.pure ⟨rfl, hacc⟩
  | cons decl decls ih =>
    refine (mergeBases_related hmembers decl.bases hacc).bind ?_
    rintro inherited _ ⟨rfl, hinherited⟩
    exact ih (hinherited.merge (Member.HoldData.fields decl.members))

theorem namedMembers_related (name : String) :
    Related SameFields (namedMembers m members name) (namedMembers m members' name) := by
  rw [namedMembers, namedMembers]
  split
  · exact (hmembers _).guarded name SameFields.none
  · split
    · exact Related.pure SameFields.none
    · refine Related.guarded name SameFields.none ((mergeInterfaces_related hmembers _ (by simp [Member.HoldData])).map ?_)
      rintro ms _ ⟨rfl, hms⟩
      exact SameFields.some hms

end Together

/-- A utility type leaves the keys as they are. -/
theorem utility?_keys {adapted : List Member → List Member} (h : utility? name = some adapted) (ms : List Member) :
    (adapted ms).map (·.key) = ms.map (·.key) := by
  obtain rfl | ⟨optional, rfl⟩ := utility?_cases h
  · rfl
  · exact List.map_map

theorem utility?_holdData {adapted : List Member → List Member} {ms : List Member} (h : utility? name = some adapted)
    (hms : Member.HoldData ms) : Member.HoldData (adapted ms) := by
  obtain rfl | ⟨optional, rfl⟩ := utility?_cases h
  · exact hms
  · exact hms.withOptional optional

/-- **The depth does not matter**: two depths at which the members of a type are told tell the same, and none of
the members is a method. -/
theorem membersOf_related (m : Module) (n k : Nat) (t : TypeExpr) :
    Related SameFields (membersOf m n t) (membersOf m k t) := by
  induction n generalizing k t with
  | zero => exact Related.failure_left
  | succ n ih =>
    cases k with
    | zero => exact Related.failure_right
    | succ k =>
      cases t with
      | object ms => exact Related.pure (SameFields.some (Member.HoldData.fields ms))
      | intersection ts => exact mergeParts_related (ih k) ts (by simp [Member.HoldData])
      | union ts =>
        rw [membersOf, membersOf]
        split
        · exact ih k _
        · exact Related.pure SameFields.none
      | reference name args =>
        simp only [membersOf]
        split
        · rename_i adapted arg hutility
          refine (ih k arg).map ?_
          rintro found _ ⟨rfl, hfound⟩
          cases found with
          | none => exact SameFields.none
          | some ms => exact SameFields.some (utility?_holdData hutility (hfound ms rfl))
        · exact namedMembers_related (ih k) name
      | _ => exact Related.pure SameFields.none

/-! ## Nodes -/

/-- A node and members that agree: the keys of the node's properties are those of the members. -/
def SameKeys (node : Node) (found : Option (List Member)) : Prop :=
  node.propertyKeys? = found.map fun ms => ms.map (·.key)

section Nodes

variable {node : TypeExpr → Resolving Node} (hscoped : ∀ t, Scoped (node t))
include hscoped

/-- Properties have the keys of the members that they are told for. -/
theorem properties_keeps (l : List Member) : Keeps (l.mapM fun x => Prod.mk x.key <$> memberNode node x)
    fun properties => properties.map Prod.fst = l.map (·.key) := by
  induction l with
  | nil => exact Keeps.pure rfl
  | cons x l ih =>
    rw [List.mapM_cons]
    refine (Keeps.map (Q := fun property => property.1 = x.key) (memberNode_scoped hscoped x) fun _ _ => rfl).bind ?_
    intro property hproperty
    refine ih.bind fun properties hproperties => Keeps.pure ?_
    rw [List.map_cons, List.map_cons, hproperty, hproperties]

/-- The node of an object has the keys of the members that hold data, in their order. -/
theorem objectNode_related (ms : List Member) :
    Related SameKeys (objectNode node ms) (pure (some (Member.fields ms))) :=
  Related.of_keeps ((properties_keeps hscoped _).map fun _ h => congrArg some h) fun _ h => h

theorem objectNode_related_of_holdData {ms : List Member} (hms : Member.HoldData ms) :
    Related SameKeys (objectNode node ms) (pure (some ms)) := by
  have hrelated := objectNode_related hscoped ms
  rwa [hms.fields_eq] at hrelated

/-- The node of an array is not one of an object. -/
theorem arrayNode_keeps (element : TypeExpr) : Keeps (arrayNode node element) fun node => node.propertyKeys? = none := by
  unfold arrayNode
  split
  · split
    · exact Keeps.map (hscoped _) fun _ _ => rfl
    · exact Keeps.map (hscoped _) fun _ _ => rfl
    · exact Keeps.map (Scoped.mapM hscoped _) fun _ _ => rfl
  · exact Keeps.map (hscoped _) fun _ _ => rfl

end Nodes

theorem keywordNode_propertyKeys? (name : String) : (keywordNode name).propertyKeys? = none := by
  unfold keywordNode
  split_ifs <;> rfl

theorem literalNode_propertyKeys? (value : LiteralType) : (literalNode value).propertyKeys? = none := by
  cases value <;> rfl

theorem keysNode_propertyKeys? (m : Module) (name : String) : (keysNode m name).propertyKeys? = none := by
  unfold keysNode
  split
  · rfl
  · split <;> rfl

theorem membersOf_literal_keeps (m : Module) (k : Nat) (value : LiteralType) :
    Keeps (membersOf m k (.literal value)) fun found => found = none := by
  cases k with
  | zero => exact Keeps.failure
  | succ k => exact Keeps.pure rfl

/-- A union of string literals has no members. -/
theorem membersOf_keeps_of_literals? {texts : List String} {t : TypeExpr} (h : literals? t = some texts) (k : Nat) :
    Keeps (membersOf m k t) fun found => found = none := by
  cases t with
  | union ts =>
    cases k with
    | zero => exact Keeps.failure
    | succ k =>
      rw [membersOf]
      split
      · rename_i only honly
        -- The only type with a shape is a string literal.
        obtain ⟨hliterals, -⟩ := Option.filter_eq_some_iff.mp h
        rw [honly, List.mapM_cons] at hliterals
        obtain ⟨text, htext, -⟩ := Option.bind_eq_some_iff.mp hliterals
        unfold TypeExpr.stringLiteral? at htext
        split at htext
        · exact membersOf_literal_keeps m k _
        · cases htext
      · exact Keeps.pure rfl
  | _ => cases h

/-- The names that have a node of their own, whatever a module declares. -/
def builtInNames : List String := ["Date", "File", "Blob", "Array", "ReadonlyArray"]

/-- What a name stands for: a declaration, the argument of a utility type, or a type without properties. -/
theorem builtIn?_cases (name : String) (args : List TypeExpr) :
    (builtIn? name args = none ∧ ∀ adapted arg, utility? name = some adapted → args ≠ [arg]) ∨
      (∃ arg adapted, args = [arg] ∧ builtIn? name args = some (.same arg) ∧ utility? name = some adapted) ∨
      (name ∈ builtInNames ∧ utility? name = none ∧
        ((∃ node, builtIn? name args = some (.known node) ∧ node.propertyKeys? = none) ∨
          ∃ element, builtIn? name args = some (.array element))) := by
  by_cases hdate : name = "Date"
  · subst hdate
    exact Or.inr (Or.inr ⟨by decide, by decide, Or.inl ⟨_, rfl, rfl⟩⟩)
  by_cases hfile : (name = "File" || name = "Blob") = true
  · refine Or.inr (Or.inr ?_)
    rcases (by simpa using hfile : name = "File" ∨ name = "Blob") with rfl | rfl
    · exact ⟨by decide, by decide, Or.inl ⟨_, rfl, rfl⟩⟩
    · exact ⟨by decide, by decide, Or.inl ⟨_, rfl, rfl⟩⟩
  simp only [builtIn?, if_neg hdate, if_neg hfile]
  split
  · rename_i arg
    by_cases harray : (name = "Array" || name = "ReadonlyArray") = true
    · rw [if_pos harray]
      refine Or.inr (Or.inr ?_)
      rcases (by simpa using harray : name = "Array" ∨ name = "ReadonlyArray") with rfl | rfl
      · exact ⟨by decide, by decide, Or.inr ⟨arg, rfl⟩⟩
      · exact ⟨by decide, by decide, Or.inr ⟨arg, rfl⟩⟩
    rw [if_neg harray]
    cases hutility : utility? name with
    | some adapted => exact Or.inr (Or.inl ⟨arg, adapted, rfl, rfl, rfl⟩)
    | none => exact Or.inl ⟨rfl, fun _ _ h => nomatch h⟩
  · rename_i hargs
    exact Or.inl ⟨rfl, fun _ arg _ => hargs arg⟩

/-- The members of a name that is not applied as a utility type are those of its declaration. -/
theorem membersOf_reference {args : List TypeExpr} {k : Nat}
    (h : ∀ adapted arg, utility? name = some adapted → args ≠ [arg]) :
    membersOf m (k + 1) (.reference name args) = namedMembers m (membersOf m k) name := by
  rw [membersOf]
  intro adapted arg hutility hargs
  exact h adapted arg hutility hargs

/-- The members of a utility type are those of its argument, as it adapts them. -/
theorem membersOf_utility? {adapted : List Member → List Member} {arg : TypeExpr} {k : Nat}
    (h : utility? name = some adapted) :
    membersOf m (k + 1) (.reference name [arg]) = Option.map adapted <$> membersOf m k arg := by
  simp only [membersOf, h]

/-- A name that is not declared has no members. -/
theorem namedMembers_of_not_mem {members : TypeExpr → Resolving (Option (List Member))} (hname : name ∉ m.typeNames) :
    namedMembers m members name = pure none := by
  have halias : m.alias? name = none :=
    Option.eq_none_iff_forall_ne_some.mpr fun _ h => hname (Module.mem_typeNames_of_alias? h)
  have hinterfaces : m.interfaces name = [] :=
    List.eq_nil_iff_forall_not_mem.mpr fun _ h => hname (Module.mem_typeNames_of_interfaces h)
  rw [namedMembers, halias, hinterfaces]

section Named

variable {node : TypeExpr → Resolving Node} {n k : Nat}

theorem aliasNode_related (h : Related SameKeys (node t) (membersOf m k t)) :
    Related SameKeys (aliasNode node t) (membersOf m k t) := by
  rw [aliasNode]
  split
  · rename_i texts hliterals
    intro names node found xs ys hnode hfound
    obtain ⟨rfl, rfl⟩ := Prod.mk.inj (Option.some.inj hnode)
    obtain ⟨rfl, rfl⟩ := membersOf_keeps_of_literals? hliterals k _ _ _ hfound
    exact ⟨rfl, rfl⟩
  · exact h

theorem namedNode_related (hscoped : ∀ t, Scoped (node t))
    (hnode : ∀ t, Related SameKeys (node t) (membersOf m k t)) (name : String) :
    Related SameKeys (namedNode m node name) (namedMembers m (membersOf m k) name) := by
  rw [namedNode, namedMembers]
  split
  · exact (aliasNode_related (hnode _)).guarded name rfl
  · split
    · split <;> exact Related.pure rfl
    · refine Related.guarded name rfl ?_
      rw [map_eq_pure_bind]
      refine (mergeInterfaces_related (fun t => membersOf_related m _ k t) _ (by simp [Member.HoldData])).bind ?_
      rintro ms _ ⟨rfl, hms⟩
      exact objectNode_related_of_holdData hscoped hms

theorem reference_related (hm : ∀ name ∈ builtInNames, name ∉ m.typeNames) (hscoped : ∀ t, Scoped (nodeOf m n t))
    (hnode : ∀ k t, Related SameKeys (nodeOf m n t) (membersOf m k t)) (name : String) (args : List TypeExpr) :
    Related SameKeys (nodeOf m (n + 1) (.reference name args)) (membersOf m (k + 1) (.reference name args)) := by
  simp only [nodeOf]
  rcases builtIn?_cases name args with ⟨hnone, hutility⟩ | ⟨arg, adapted, rfl, hsame, hutility⟩ | ⟨hname, hutility, hbuiltIn⟩
  · simp only [hnone, membersOf_reference hutility]
    exact namedNode_related hscoped (hnode k) name
  · simp only [hsame, membersOf_utility? hutility]
    rw [← id_map (nodeOf m n arg)]
    refine (hnode k arg).map fun node found h => ?_
    rw [SameKeys, id, h]
    cases found with
    | none => rfl
    | some ms => exact congrArg some (utility?_keys hutility ms).symm
  · have hdeclared : ∀ adapted arg, utility? name = some adapted → args ≠ [arg] := by
      intro adapted arg h
      rw [hutility] at h
      cases h
    rw [membersOf_reference hdeclared, namedMembers_of_not_mem (hm name hname)]
    rcases hbuiltIn with ⟨known, hknown, hkeys⟩ | ⟨element, harray⟩
    · simp only [hknown]
      exact Related.pure hkeys
    · simp only [harray]
      exact Related.of_keeps (arrayNode_keeps hscoped element) fun _ h => h

end Named

/-- **A node agrees with the members**, inside any names and at any depths at which both are told. -/
theorem nodeOf_related (hm : ∀ name ∈ builtInNames, name ∉ m.typeNames) (n k : Nat) (t : TypeExpr) :
    Related SameKeys (nodeOf m n t) (membersOf m k t) := by
  have hscoped := nodeOf_scoped m
  induction n generalizing k t with
  | zero => exact Related.failure_left
  | succ n ih =>
    cases k with
    | zero => exact Related.failure_right
    | succ k =>
      cases t with
      | keyword name => exact Related.pure (keywordNode_propertyKeys? name)
      | literal value => exact Related.pure (literalNode_propertyKeys? value)
      | array element => exact Related.of_keeps (arrayNode_keeps (hscoped n) element) fun _ h => h
      | union ts =>
        rw [nodeOf, unionNode, membersOf]
        cases TypeExpr.withoutNullish ts with
        | nil => exact Related.pure rfl
        | cons first rest =>
          cases rest with
          | nil => exact ih k first
          | cons second rest =>
            exact Related.of_keeps (Keeps.map (Scoped.mapM (hscoped n) _) fun _ _ => rfl) fun _ h => h
      | object ms => exact objectNode_related (hscoped n) ms
      | intersection ts =>
        rw [nodeOf, ← bind_pure (membersOf m (k + 1) (.intersection ts))]
        refine (membersOf_related m _ _ _).bind ?_
        rintro found _ ⟨rfl, hfound⟩
        cases found with
        | none => exact Related.pure rfl
        | some ms => exact objectNode_related_of_holdData (hscoped n) (hfound ms rfl)
      | reference name args => exact reference_related hm (hscoped n) ih name args
      | keyofTypeof name => exact Related.pure (keysNode_propertyKeys? m name)
      | other => exact Related.pure rfl

/-- **Members and nodes agree.** In a module that declares no name of a built-in type, inside any names, let the
node of a type and its members both be told, at whatever depths. The type has members exactly when its node is an
object, and the object's properties have the keys of the members, in their order. -/
theorem members_agree_with_node (hm : ∀ name ∈ builtInNames, name ∉ m.typeNames) (t : TypeExpr)
    (names : List String) (n k : Nat) {node : Node} {found : Option (List Member)}
    (hnode : (nodeOf m n t).run' names = some node) (hfound : (membersOf m k t).run' names = some found) :
    ((∃ ms, found = some ms) ↔ ∃ properties, node = .object properties) ∧
      ∀ ms properties, found = some ms → node = .object properties → properties.map Prod.fst = ms.map (·.key) := by
  have hkeys : node.propertyKeys? = found.map fun ms => ms.map (·.key) :=
    (nodeOf_related hm n k t).of_run' hnode hfound
  cases found with
  | none =>
    have hnot : ∀ properties, node ≠ .object properties := by
      rintro properties rfl
      cases hkeys
    refine ⟨⟨?_, fun ⟨properties, h⟩ => absurd h (hnot properties)⟩, fun _ _ h => nomatch h⟩
    rintro ⟨ms, h⟩
    cases h
  | some ms =>
    obtain ⟨properties, rfl⟩ : ∃ properties, node = .object properties := by
      cases node with
      | object properties => exact ⟨properties, rfl⟩
      | _ => cases hkeys
    refine ⟨⟨fun _ => ⟨properties, rfl⟩, fun _ => ⟨ms, rfl⟩⟩, fun ms' properties' hms hproperties => ?_⟩
    obtain rfl := Option.some.inj hms
    obtain rfl := Node.object.inj hproperties
    exact Option.some.inj hkeys

/-- A module with an alias and an interface above it, which overrides one member. -/
def shapesModule : Module :=
  ⟨[.alias ⟨"A", .object [⟨"a", false, some (.keyword "string"), none, false⟩,
      ⟨"run", false, none, none, true⟩, ⟨"b", false, some (.keyword "number"), none, false⟩]⟩,
    .interface ⟨"I", ["A"], [⟨"c", false, some (.reference "I" []), none, false⟩,
      ⟨"a", true, some (.keyword "boolean"), none, false⟩]⟩]⟩

/-- A utility type over an intersection of the interface and an object. -/
def shapesType : TypeExpr :=
  .reference "Partial" [.intersection [.reference "I" [], .object [⟨"d", false, some (.reference "A" []), none, false⟩]]]

/-- Inside the alias `A`, the interface has no members from it, and the type and its node agree on that. -/
theorem members_agree_with_node_inside :
    (∀ name ∈ builtInNames, name ∉ shapesModule.typeNames) ∧
    ∃ properties ms, (nodeOf shapesModule 8 shapesType).run' ["A"] = some (.object properties) ∧
      (membersOf shapesModule 8 shapesType).run' ["A"] = some (some ms) ∧
      properties.map Prod.fst = ms.map (·.key) ∧ ms.map (·.key) = ["c", "a", "d"] :=
  have hnames : ∀ name ∈ builtInNames, name ∉ shapesModule.typeNames := by decide
  ⟨hnames, _, _, rfl, rfl, (members_agree_with_node hnames shapesType ["A"] 8 8 rfl rfl).2 _ _ rfl rfl, rfl⟩

end Classify

end AppBundler
