import AppBundler.Proofs.Schema.Shapes
import AppBundler.Proofs.Schema.Texts
/-!
# Schemas of reworded modules

Nothing is decided by the texts that readers keep. What a module tells of members and of nodes is told of the reworded module
as well, reworded in the same way and with the same depth. So one lemma for each classification says that rewording may be
done before it or after it.
-/

namespace AppBundler

variable {f : String → String}

/-! ## Declarations -/

namespace Module

instance : Reworded Binding where
  reword f
    | .function decl => .function (reword f decl)
    | .variable decl => .variable (reword f decl)
  reword_id b := by cases b <;> simp

variable (f) (m : Module) (name : String)

/-- A lookup that tells the same of reworded items tells the same of a reworded module. -/
theorem findSome?_reword {β : Type} [Reworded β] {g : Item → Option β} (h : ∀ item, g (reword f item) = reword f (g item)) :
    (reword f m).items.findSome? g = reword f (m.items.findSome? g) := by
  obtain ⟨items⟩ := m
  change List.findSome? g (items.map (reword f)) = Option.map (reword f) (List.findSome? g items)
  rw [List.findSome?_map, List.map_findSome?]
  exact congrArg (List.findSome? · items) (funext h)

theorem alias?_reword : (reword f m).alias? name = reword f (m.alias? name) := by
  refine findSome?_reword f m fun item => ?_
  cases item with
  | «alias» decl => by_cases hname : decl.name = name <;> simp [reword, hname]
  | _ => rfl

theorem enum?_reword : (reword f m).enum? name = reword f (m.enum? name) := by
  refine findSome?_reword f m fun item => ?_
  cases item with
  | enum decl => by_cases hname : decl.name = name <;> simp [reword, hname]
  | _ => rfl

theorem binding?_reword : (reword f m).binding? name = reword f (m.binding? name) := by
  refine findSome?_reword f m fun item => ?_
  cases item with
  | function decl => by_cases hname : decl.name = some name <;> simp [reword, hname]
  | «variable» decl => by_cases hname : decl.name = name <;> simp [reword, hname]
  | _ => rfl

theorem interfaces_reword : (reword f m).interfaces name = reword f (m.interfaces name) := by
  obtain ⟨items⟩ := m
  change List.filterMap _ (items.map (reword f)) = List.map (reword f) (List.filterMap _ items)
  rw [List.filterMap_map, List.map_filterMap]
  congr 1
  funext item
  cases item with
  | interface decl => by_cases hname : decl.name = name <;> simp [reword, hname]
  | _ => rfl

theorem exportSpecifiers_reword : (reword f m).exportSpecifiers = m.exportSpecifiers := by
  obtain ⟨items⟩ := m
  change List.flatMap _ (items.map (reword f)) = List.flatMap _ items
  rw [List.flatMap_map]
  congr 1
  funext item
  cases item <;> rfl

end Module

/-! ## Types and members -/

namespace TypeExpr

variable (f)

@[simp]
theorem isKeyword_reword (t : TypeExpr) (name : String) : (reword f t).isKeyword name = t.isKeyword name := by
  cases t <;> rfl

@[simp]
theorem isNullish_reword (t : TypeExpr) : (reword f t).isNullish = t.isNullish := by
  simp only [isNullish, isKeyword_reword]

@[simp]
theorem stringLiteral?_reword (t : TypeExpr) : (reword f t).stringLiteral? = t.stringLiteral? := by
  cases t <;> rfl

theorem withoutNullish_reword (ts : List TypeExpr) : withoutNullish (reword f ts) = reword f (withoutNullish ts) := by
  change List.filter _ (ts.map (reword f)) = (List.filter _ ts).map (reword f)
  rw [List.filter_map]
  exact congrArg (List.map (reword f)) (List.filter_congr fun t _ => by simp)

mutual

theorem within_reworded : ∀ t : TypeExpr, (t.reworded f).within = reword f t.within
  | .reference _ args => by rw [reworded, within, withinAll_reworded args]; rfl
  | .array element => by rw [reworded, within, within_reworded element]; rfl
  | .union ts => by rw [reworded, within, withinAll_reworded ts]; rfl
  | .intersection ts => by rw [reworded, within, withinAll_reworded ts]; rfl
  | .object ms => by rw [reworded, within, withinMembers_reworded ms]; rfl
  | .keyword _ => rfl
  | .literal _ => rfl
  | .keyofTypeof _ => rfl
  | .other => rfl

theorem withinAll_reworded : ∀ ts : List TypeExpr, withinAll (rewordedAll f ts) = reword f (withinAll ts)
  | [] => rfl
  | t :: r => by rw [rewordedAll, withinAll, withinAll, within_reworded t, withinAll_reworded r, reword_append]

theorem withinMembers_reworded :
    ∀ ms : List (MemberOf TypeExpr), withinMembers (rewordedMembers f ms) = reword f (withinMembers ms)
  | [] => rfl
  | x :: r => by
    rw [rewordedMembers, withinMembers, withinMembers, withinMember_reworded x, withinMembers_reworded r, reword_append]

theorem withinMember_reworded : ∀ x : MemberOf TypeExpr, withinMember (rewordedMember f x) = reword f (withinMember x)
  | ⟨_, _, type, _, _⟩ => by rw [rewordedMember, withinMember, withinMember, withinOption_reworded type]

theorem withinOption_reworded : ∀ t : Option TypeExpr, withinOption (rewordedOption f t) = reword f (withinOption t)
  | none => rfl
  | some t => by rw [rewordedOption, withinOption, withinOption, within_reworded t]

end

theorem length_within_reword (t : TypeExpr) : (reword f t).within.length = t.within.length :=
  (congrArg List.length (within_reworded f t)).trans (List.length_map _)

end TypeExpr

namespace Module

variable (f) (m : Module)

theorem length_items_reword : (reword f m).items.length = m.items.length := List.length_map _

theorem declaredTypes_reword : (reword f m).declaredTypes = reword f m.declaredTypes := by
  obtain ⟨items⟩ := m
  change List.flatMap _ (items.map (reword f)) = List.map (reword f) (List.flatMap _ items)
  rw [List.flatMap_map, List.map_flatMap]
  congr 1
  funext item
  cases item with
  | «alias» decl => exact TypeExpr.within_reworded f decl.type
  | interface decl =>
    change decl.bases.map _ ++ TypeExpr.withinMembers (reword f decl.members) = List.map (reword f) (_ ++ _)
    rw [← TypeExpr.rewordedMembers_eq, TypeExpr.withinMembers_reworded, List.map_append, List.map_map]
    rfl
  | _ => rfl

theorem depthFor_reword (t : TypeExpr) : (reword f m).depthFor (reword f t) = m.depthFor t := by
  have hdeclared : (reword f m.declaredTypes).length = m.declaredTypes.length := List.length_map _
  rw [depthFor, depthFor, length_items_reword, declaredTypes_reword, hdeclared, TypeExpr.length_within_reword]

end Module

namespace Member

variable (f) (into ms : List Member)

@[simp]
theorem key_reword (x : Member) : (reword f x).key = x.key := by
  obtain ⟨_⟩ := x
  rfl

theorem fields_reword : fields (reword f ms) = reword f (fields ms) := by
  change List.filter _ (ms.map (reword f)) = (List.filter _ ms).map (reword f)
  rw [List.filter_map]
  refine congrArg (List.map (reword f)) (List.filter_congr fun x _ => ?_)
  obtain ⟨_⟩ := x
  rfl

theorem withOptional_reword (optional : Bool) : withOptional optional (reword f ms) = reword f (withOptional optional ms) := by
  change (ms.map (reword f)).map _ = (ms.map _).map (reword f)
  rw [List.map_map, List.map_map]
  refine List.map_congr_left fun x _ => ?_
  obtain ⟨_⟩ := x
  rfl

theorem put_reword (x : Member) : put (reword f x) (reword f ms) = reword f (put x ms) := by
  induction ms with
  | nil => rfl
  | cons y ms ih =>
    rw [reword_cons, put, put, key_reword, key_reword]
    split
    · rfl
    · rw [ih, reword_cons]

theorem merge_reword : merge (reword f into) (reword f ms) = reword f (merge into ms) := by
  induction ms generalizing into with
  | nil => rfl
  | cons x ms ih =>
    have hput : merge (put (reword f x) (reword f into)) (reword f ms) = reword f (merge (put x into) ms) := by
      rw [put_reword, ih]
    exact hput

end Member

/-! ## Members of types -/

namespace Classify

section Resolving

/-! Rewording goes through the steps that a classification is made of. -/

variable {α β : Type} [Reworded α] [Reworded β] {x x' : Resolving α}

theorem pure_reword {a a' : α} (h : a' = reword f a) : (pure a' : Resolving α) = reword f <$> pure a := by
  rw [h, map_pure]

theorem bind_reword {g g' : α → Resolving β} (hx : x' = reword f <$> x) (hg : ∀ a, g' (reword f a) = reword f <$> g a) :
    x' >>= g' = reword f <$> (x >>= g) := by
  rw [hx, bind_map_left, map_bind]
  exact congrArg _ (funext hg)

theorem map_reword {g g' : α → β} (hx : x' = reword f <$> x) (hg : ∀ a, g' (reword f a) = reword f (g a)) :
    g' <$> x' = reword f <$> g <$> x := by
  rw [hx, Functor.map_map, Functor.map_map]
  exact congrArg (· <$> x) (funext hg)

theorem guarded_reword (name : String) {a a' : α} (ha : a' = reword f a) (hx : x' = reword f <$> x) :
    guarded name a' x' = reword f <$> guarded name a x := by
  refine StateT.ext fun names => ?_
  rw [run_guarded, StateT.run_map, run_guarded, ha, hx, StateT.run_map]
  split
  · rfl
  · cases x.run (name :: names) <;> rfl

theorem mapM_reword {g g' : α → Resolving β} (h : ∀ a, g' (reword f a) = reword f <$> g a) (l : List α) :
    (reword f l).mapM g' = reword f <$> l.mapM g := by
  induction l with
  | nil => exact pure_reword rfl
  | cons a l ih =>
    rw [reword_cons, List.mapM_cons, List.mapM_cons]
    exact bind_reword (h a) fun b => bind_reword ih fun bs => pure_reword rfl

theorem run'_reword (h : x' = reword f <$> x) (names : List String) : x'.run' names = reword f (x.run' names) := by
  rw [h, StateT.run'_eq, StateT.run'_eq, StateT.run_map]
  cases x.run names <;> rfl

end Resolving

variable (f) (m : Module)

theorem utility?_reword {name : String} {adapted : List Member → List Member} (h : utility? name = some adapted)
    (ms : List Member) : adapted (reword f ms) = reword f (adapted ms) := by
  obtain rfl | ⟨optional, rfl⟩ := utility?_cases h
  · rfl
  · exact Member.withOptional_reword f ms optional

section Members

variable {f} {members members' : TypeExpr → Resolving (Option (List Member))}
  (hmembers : ∀ t, members' (reword f t) = reword f <$> members t)
include hmembers

theorem mergeParts_reword (acc : List Member) (ts : List TypeExpr) :
    mergeParts members' (reword f acc) (reword f ts) = reword f <$> mergeParts members acc ts := by
  induction ts generalizing acc with
  | nil => exact pure_reword rfl
  | cons t ts ih =>
    rw [reword_cons, mergeParts, mergeParts]
    refine bind_reword (hmembers t) fun found => ?_
    cases found with
    | none => exact pure_reword rfl
    | some ms => exact (congrArg (mergeParts members' · _) (Member.merge_reword f acc ms)).trans (ih _)

theorem mergeBases_reword (acc : List Member) (bases : List String) :
    mergeBases members' (reword f acc) bases = reword f <$> mergeBases members acc bases := by
  induction bases generalizing acc with
  | nil => exact pure_reword rfl
  | cons base bases ih =>
    rw [mergeBases, mergeBases]
    refine bind_reword (hmembers (.reference base [])) fun found => ?_
    cases found with
    | none => exact ih acc
    | some ms => exact (congrArg (mergeBases members' · _) (Member.merge_reword f acc ms)).trans (ih _)

theorem mergeInterfaces_reword (acc : List Member) (decls : List InterfaceDecl) :
    mergeInterfaces members' (reword f acc) (reword f decls) = reword f <$> mergeInterfaces members acc decls := by
  induction decls generalizing acc with
  | nil => exact pure_reword rfl
  | cons decl decls ih =>
    rw [reword_cons, mergeInterfaces, mergeInterfaces]
    refine bind_reword (mergeBases_reword hmembers acc decl.bases) fun inherited => ?_
    have hown : Member.merge (reword f inherited) (Member.fields (reword f decl).members) =
        reword f (Member.merge inherited (Member.fields decl.members)) := by
      rw [← Member.merge_reword, ← Member.fields_reword]
      rfl
    rw [hown, ih]

theorem namedMembers_reword (name : String) :
    namedMembers (reword f m) members' name = reword f <$> namedMembers m members name := by
  rw [namedMembers, namedMembers, Module.alias?_reword, Module.interfaces_reword]
  cases m.alias? name with
  | some decl => exact guarded_reword name rfl (hmembers decl.type)
  | none =>
    cases m.interfaces name with
    | nil => exact pure_reword rfl
    | cons decl decls =>
      exact guarded_reword name rfl (map_reword (mergeInterfaces_reword hmembers [] (decl :: decls)) fun _ => rfl)

end Members

theorem membersOf_reword (n : Nat) (t : TypeExpr) : membersOf (reword f m) n (reword f t) = reword f <$> membersOf m n t := by
  induction n generalizing t with
  | zero => rfl
  | succ n ih =>
    cases t with
    | object ms =>
      rw [reword_object, membersOf, membersOf]
      exact pure_reword (congrArg some (Member.fields_reword f ms))
    | intersection ts =>
      rw [reword_intersection, membersOf, membersOf]
      exact mergeParts_reword ih [] ts
    | union ts =>
      rw [reword_union, membersOf, membersOf, TypeExpr.withoutNullish_reword]
      rcases TypeExpr.withoutNullish ts with _ | ⟨only, _ | ⟨u, r⟩⟩
      · exact pure_reword rfl
      · exact ih only
      · exact pure_reword rfl
    | reference name args =>
      rw [reword_reference]
      cases hutility : utility? name with
      | none =>
        rw [membersOf_reference (by simp [hutility]), membersOf_reference (by simp [hutility])]
        exact namedMembers_reword m ih name
      | some adapted =>
        rcases args with _ | ⟨arg, _ | ⟨u, r⟩⟩
        · rw [reword_nil, membersOf_reference (by simp), membersOf_reference (by simp)]
          exact namedMembers_reword m ih name
        · rw [reword_cons, reword_nil, membersOf_utility? hutility, membersOf_utility? hutility]
          refine map_reword (ih arg) fun found => ?_
          cases found with
          | none => rfl
          | some ms => exact congrArg some (utility?_reword f hutility ms)
        · rw [reword_cons, reword_cons, membersOf_reference (by simp), membersOf_reference (by simp)]
          exact namedMembers_reword m ih name
    | _ => exact pure_reword rfl

theorem objectMembers_reword (t : TypeExpr) : objectMembers (reword f m) (reword f t) = reword f <$> objectMembers m t := by
  rw [objectMembers, objectMembers, Module.depthFor_reword, membersOf_reword]

/-! ## Nodes of types -/

theorem isFreeText_reword (t : TypeExpr) : isFreeText (reword f t) = isFreeText t := by
  cases t with
  | union ts =>
    have hlength : (reword f (TypeExpr.withoutNullish ts)).length = (TypeExpr.withoutNullish ts).length := List.length_map _
    have hall : (reword f (TypeExpr.withoutNullish ts)).all (fun t => t.stringLiteral?.isSome) =
        (TypeExpr.withoutNullish ts).all fun t => t.stringLiteral?.isSome := by
      change List.all (List.map _ _) _ = _
      simp only [List.all_map, Function.comp_def, TypeExpr.stringLiteral?_reword]
    rw [reword_union, isFreeText, isFreeText, TypeExpr.withoutNullish_reword, hlength, hall]
  | _ => rfl

theorem literals?_reword (t : TypeExpr) : literals? (reword f t) = literals? t := by
  cases t with
  | union ts =>
    have hmap : (reword f (TypeExpr.withoutNullish ts)).mapM TypeExpr.stringLiteral? =
        (TypeExpr.withoutNullish ts).mapM TypeExpr.stringLiteral? := by
      change List.mapM _ (List.map _ _) = _
      rw [List.mapM_map]
      exact congrArg (List.mapM · _) (funext (TypeExpr.stringLiteral?_reword f))
    rw [reword_union, literals?, literals?, TypeExpr.withoutNullish_reword, hmap]
  | _ => rfl

theorem keywordNode_reword (name : String) : reword f (keywordNode name) = keywordNode name := by
  unfold keywordNode
  split_ifs <;> rfl

theorem literalNode_reword (value : LiteralType) : reword f (literalNode value) = literalNode value := by
  cases value <;> rfl

theorem enumNode_reword (decl : EnumDecl) : enumNode (reword f decl) = reword f (enumNode decl) := by
  refine congrArg Node.enum ?_
  change (decl.members.map (reword f)).map _ = (decl.members.map _).map (reword f)
  rw [List.map_map, List.map_map]
  refine List.map_congr_left fun x _ => ?_
  obtain ⟨name, value⟩ := x
  cases value <;> rfl

theorem reword_enum_names {α : Type} (name : α → String) (l : List α) :
    reword f (Node.enum (l.map fun a => .name (name a))) = .enum (l.map fun a => .name (name a)) := by
  refine congrArg Node.enum ?_
  change (l.map _).map (reword f) = _
  rw [List.map_map]
  rfl

theorem keysNode_reword (name : String) : keysNode (reword f m) name = reword f (keysNode m name) := by
  rw [keysNode, keysNode, Module.enum?_reword, Module.binding?_reword]
  cases m.enum? name with
  | some decl =>
    refine Eq.trans (congrArg Node.enum ?_) (reword_enum_names f EnumMember.name decl.members).symm
    exact List.map_map
  | none =>
    rcases m.binding? name with _ | _ | ⟨_, _, _ | e, _⟩
    · rfl
    · rfl
    · rfl
    · cases e with
      | object props =>
        refine Eq.trans (congrArg Node.enum ?_) (reword_enum_names f Prod.fst props).symm
        rw [Expr.rewordedProps_eq]
        exact List.map_map
      | _ => rfl

instance : Reworded BuiltIn where
  reword f
    | .array element => .array (reword f element)
    | .known node => .known (reword f node)
    | .same arg => .same (reword f arg)
  reword_id b := by cases b <;> simp

theorem builtIn?_reword (name : String) (args : List TypeExpr) :
    builtIn? name (reword f args) = reword f (builtIn? name args) := by
  unfold builtIn?
  rcases args with _ | ⟨arg, _ | ⟨_, _⟩⟩ <;> simp only [reword_nil, reword_cons] <;> split_ifs <;> rfl

section Nodes

variable {f} {node node' : TypeExpr → Resolving Node} (hnode : ∀ t, node' (reword f t) = reword f <$> node t)
include hnode

theorem propertyNode_reword (t : TypeExpr) : propertyNode node' (reword f t) = reword f <$> propertyNode node t := by
  rw [propertyNode, propertyNode, isFreeText_reword]
  split
  · exact pure_reword rfl
  · exact hnode t

theorem memberNode_reword (x : Member) : memberNode node' (reword f x) = reword f <$> memberNode node x := by
  obtain ⟨key, optional, type, doc, method⟩ := x
  cases type with
  | none => exact pure_reword rfl
  | some t => exact propertyNode_reword hnode t

theorem objectNode_reword (ms : List Member) : objectNode node' (reword f ms) = reword f <$> objectNode node ms := by
  rw [objectNode, objectNode, Member.fields_reword]
  refine map_reword (mapM_reword (fun x => ?_) (Member.fields ms)) fun props => (reword_nodeObject f props).symm
  rw [Member.key_reword]
  exact map_reword (memberNode_reword hnode x) fun _ => rfl

theorem arrayNode_reword (t : TypeExpr) : arrayNode node' (reword f t) = reword f <$> arrayNode node t := by
  have hlone (u : TypeExpr) : Node.array <$> node' (reword f u) = reword f <$> Node.array <$> node u :=
    map_reword (hnode u) fun _ => rfl
  cases t with
  | union ts =>
    have hunion : node' (.union (reword f ts)) = node' (reword f (.union ts)) := by rw [reword_union]
    rw [reword_union, arrayNode, arrayNode, TypeExpr.withoutNullish_reword]
    rcases TypeExpr.withoutNullish ts with _ | ⟨only, _ | ⟨u, r⟩⟩
    · exact (congrArg (Node.array <$> ·) hunion).trans (hlone _)
    · exact hlone only
    · exact map_reword (mapM_reword hnode (only :: u :: r)) fun members => (reword_unionArray f members).symm
  | _ => exact hlone _

theorem unionNode_reword (ts : List TypeExpr) : unionNode node' (reword f ts) = reword f <$> unionNode node ts := by
  rw [unionNode, unionNode, TypeExpr.withoutNullish_reword]
  rcases TypeExpr.withoutNullish ts with _ | ⟨only, _ | ⟨u, r⟩⟩
  · exact pure_reword rfl
  · exact hnode only
  · exact map_reword (mapM_reword hnode (only :: u :: r)) fun variants => (reword_nodeUnion f variants).symm

theorem aliasNode_reword (t : TypeExpr) : aliasNode node' (reword f t) = reword f <$> aliasNode node t := by
  rw [aliasNode, aliasNode, literals?_reword]
  cases literals? t with
  | none => exact hnode t
  | some texts => exact pure_reword (reword_enum_names f id texts).symm

theorem namedNode_reword (name : String) : namedNode (reword f m) node' name = reword f <$> namedNode m node name := by
  rw [namedNode, namedNode, Module.alias?_reword, Module.interfaces_reword, Module.enum?_reword]
  cases m.alias? name with
  | some decl => exact guarded_reword name rfl (aliasNode_reword hnode decl.type)
  | none =>
    cases m.interfaces name with
    | nil =>
      cases m.enum? name with
      | none => exact pure_reword rfl
      | some decl => exact pure_reword (enumNode_reword f decl)
    | cons decl decls =>
      have hmembers := mergeInterfaces_reword (objectMembers_reword f m) [] (decl :: decls)
      exact guarded_reword name rfl (bind_reword hmembers (objectNode_reword hnode))

end Nodes

/-- **The node of a reworded type** in a reworded module is the reworded node. -/
theorem nodeOf_reword (n : Nat) (t : TypeExpr) : nodeOf (reword f m) n (reword f t) = reword f <$> nodeOf m n t := by
  induction n generalizing t with
  | zero => rfl
  | succ n ih =>
    cases t with
    | keyword name => exact pure_reword (keywordNode_reword f name).symm
    | literal value => exact pure_reword (literalNode_reword f value).symm
    | array element => exact arrayNode_reword ih element
    | union ts =>
      rw [reword_union, nodeOf, nodeOf]
      exact unionNode_reword ih ts
    | object ms =>
      rw [reword_object, nodeOf, nodeOf]
      exact objectNode_reword ih ms
    | intersection ts =>
      rw [reword_intersection, nodeOf, nodeOf, ← reword_intersection]
      refine bind_reword (objectMembers_reword f m _) fun found => ?_
      cases found with
      | none => exact pure_reword rfl
      | some ms => exact objectNode_reword ih ms
    | reference name args =>
      rw [reword_reference, nodeOf, nodeOf, builtIn?_reword]
      rcases builtIn? name args with _ | element | node | arg
      · exact namedNode_reword m ih name
      · exact arrayNode_reword ih element
      · exact pure_reword rfl
      · exact ih arg
    | keyofTypeof name => exact pure_reword (keysNode_reword f m name)
    | other => exact pure_reword rfl

end Classify

namespace Module

variable (f) (m : Module) (t : TypeExpr)

theorem membersOf_reword : (reword f m).membersOf (reword f t) = reword f (m.membersOf t) := by
  rw [membersOf, membersOf]
  exact Classify.run'_reword (Classify.objectMembers_reword f m t) []

theorem propertyNodeOf_reword : (reword f m).propertyNodeOf (reword f t) = reword f (m.propertyNodeOf t) := by
  rw [propertyNodeOf, propertyNodeOf, depthFor_reword]
  exact Classify.run'_reword (Classify.propertyNode_reword (Classify.nodeOf_reword f m _) t) []

end Module

end AppBundler
