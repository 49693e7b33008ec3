import AppBundler.Proofs.Schema.Nullish
import AppBundler.Proofs.Schema.Shapes
import AppBundler.Proofs.Schema.Termination
/-!
# Null does not change a node

A classification goes through two modules side by side that are the same but for null. A union that is one type and null
stands for that type, which takes one more step on its side; so twice the depth suffices for the other module to tell the
same. What is told at last does not depend on the depth. Only an alias of a lone string literal makes a difference: its
node is the literal, and with null beside it an enum of one value.
-/

namespace AppBundler.Classify

open TypeExpr

variable {α β : Type} {m m' : Module} {n k : Nat} {t t' : TypeExpr} {R : α → β → Prop}

/-- Lists of which a function gives the same are both empty, both of one element, or both longer. -/
theorem cases_of_map_eq {f : α → β} {l l' : List α} (h : l.map f = l'.map f) :
    (l = [] ∧ l' = []) ∨ (∃ a a', l = [a] ∧ l' = [a'] ∧ f a = f a') ∨
      ∃ a b r a' b' r', l = a :: b :: r ∧ l' = a' :: b' :: r' := by
  rcases l with _ | ⟨a, _ | ⟨b, r⟩⟩
  · exact Or.inl ⟨rfl, List.map_eq_nil_iff.mp h.symm⟩
  · obtain ⟨a', rfl, ha⟩ := List.map_eq_singleton_iff.mp h.symm
    exact Or.inr (Or.inl ⟨a, a', rfl, rfl, ha.symm⟩)
  · obtain ⟨a', tail, rfl, -, htail⟩ := List.map_eq_cons_iff.mp h.symm
    obtain ⟨b', r', rfl, -⟩ := List.map_eq_cons_iff.mp htail
    exact Or.inr (Or.inr ⟨a, b, r, a', b', r', rfl, rfl⟩)

/-- **One step at a time.** Two recursions on types may go on together at types of one form, and each goes on alone at a union
of one type and null. Then what the first tells is told by the second with twice the depth. -/
theorem refines_of_core {f : Nat → TypeExpr → Resolving α} {g : Nat → TypeExpr → Resolving β} (hzero : ∀ t, f 0 t = failure)
    (hf : ∀ n ts only, withoutNullish ts = [only] → f (n + 1) (.union ts) = f n only)
    (hg : ∀ k ts only, withoutNullish ts = [only] → g (k + 1) (.union ts) = g k only)
    (hstep : ∀ n k, (∀ u u', u.core = u'.core → Refines R (f n u) (g k u')) →
      ∀ t t', SameForm t t' → Refines R (f (n + 1) t) (g (k + 1) t'))
    (hk : 2 * n ≤ k) (h : t.core = t'.core) : Refines R (f n t) (g k t') := by
  induction n generalizing k t t' with
  | zero =>
    rw [hzero]
    exact Refines.failure
  | succ n ih =>
    obtain ⟨k, rfl⟩ : ∃ j, k = j + 2 := ⟨k - 2, by omega⟩
    by_cases hunion : t.isUnion = t'.isUnion
    · exact hstep n (k + 1) (fun u u' => ih (by omega)) t t' (sameForm_of_core hunion h)
    -- Only one of the two is a union, which goes on with its lone member: at the same depth of the other recursion when the
    -- union is the first type, and with the first of two steps of the other one when it is the second.
    cases t with
    | union ts =>
      have ht' : t'.isUnion = false := by simpa [isUnion] using Ne.symm hunion
      obtain ⟨only, honly, hcleared⟩ := exists_of_core_union ht' h
      rw [hf n ts only honly]
      exact ih (by omega) (core_eq_of_cleared hcleared)
    | _ =>
      cases t' with
      | union ts' =>
        obtain ⟨only, honly, hcleared⟩ := exists_of_core_union rfl h.symm
        rw [hg (k + 1) ts' only honly]
        exact hstep n k (fun u u' => ih (by omega)) _ only (sameForm_of_cleared rfl hcleared.symm)
      | _ => exact absurd rfl hunion

/-! ## Members -/

/-- The same members but for null, or none in both. -/
def SameMembers (found found' : Option (List Member)) : Prop :=
  found.map (List.map Member.core) = found'.map (List.map Member.core)

theorem SameMembers.of_eq {ms ms' : List Member} (h : ms.map Member.core = ms'.map Member.core) :
    SameMembers (some ms) (some ms') := congrArg some h

theorem SameMembers.cases {found found' : Option (List Member)} (h : SameMembers found found') :
    (found = none ∧ found' = none) ∨
      ∃ ms ms', found = some ms ∧ found' = some ms' ∧ ms.map Member.core = ms'.map Member.core := by
  cases found with
  | none => exact Or.inl ⟨rfl, Option.map_eq_none_iff.mp h.symm⟩
  | some ms =>
    obtain ⟨ms', hfound', hms⟩ := Option.map_eq_some_iff.mp h.symm
    exact Or.inr ⟨ms, ms', rfl, hfound', hms.symm⟩

/-- A utility type does not look at the types of members. -/
theorem utility?_core {name : String} {adapted : List Member → List Member} (h : utility? name = some adapted)
    (ms : List Member) : (adapted ms).map Member.core = adapted (ms.map Member.core) := by
  obtain rfl | ⟨optional, rfl⟩ := utility?_cases h
  · rfl
  · exact Member.withOptional_core optional ms

theorem SameMembers.adapted {name : String} {adapted : List Member → List Member} {found found' : Option (List Member)}
    (hutility : utility? name = some adapted) (h : SameMembers found found') :
    SameMembers (found.map adapted) (found'.map adapted) := by
  rcases h.cases with ⟨rfl, rfl⟩ | ⟨ms, ms', rfl, rfl, hms⟩
  · rfl
  · exact SameMembers.of_eq (by rw [utility?_core hutility, utility?_core hutility, hms])

section Members

variable {members members' : TypeExpr → Resolving (Option (List Member))} {acc acc' : List Member}
  (hmembers : ∀ t t', t.core = t'.core → Refines SameMembers (members t) (members' t'))
include hmembers

theorem mergeParts_refines {ts ts' : List TypeExpr} (h : ts.map core = ts'.map core)
    (hacc : acc.map Member.core = acc'.map Member.core) :
    Refines SameMembers (mergeParts members acc ts) (mergeParts members' acc' ts') := by
  induction ts generalizing ts' acc acc' with
  | nil =>
    obtain rfl := List.map_eq_nil_iff.mp h.symm
    exact Refines.pure (SameMembers.of_eq hacc)
  | cons t ts ih =>
    obtain ⟨t', ts', rfl, ht, hts⟩ := List.map_eq_cons_iff.mp h.symm
    refine (hmembers t t' ht.symm).bind fun found found' hfound => ?_
    rcases hfound.cases with ⟨rfl, rfl⟩ | ⟨ms, ms', rfl, rfl, hms⟩
    · exact Refines.pure rfl
    · exact ih hts.symm (by rw [Member.merge_core, Member.merge_core, hacc, hms])

theorem mergeBases_refines (bases : List String) (hacc : acc.map Member.core = acc'.map Member.core) :
    Refines (fun ms ms' => ms.map Member.core = ms'.map Member.core) (mergeBases members acc bases)
      (mergeBases members' acc' bases) := by
  induction bases generalizing acc acc' with
  | nil => exact Refines.pure hacc
  | cons base bases ih =>
    refine (hmembers (.reference base []) _ rfl).bind fun found found' hfound => ?_
    rcases hfound.cases with ⟨rfl, rfl⟩ | ⟨ms, ms', rfl, rfl, hms⟩
    · exact ih hacc
    · exact ih (by rw [Member.merge_core, Member.merge_core, hacc, hms])

theorem mergeInterfaces_refines {decls decls' : List InterfaceDecl}
    (h : decls.map InterfaceDecl.core = decls'.map InterfaceDecl.core)
    (hacc : acc.map Member.core = acc'.map Member.core) :
    Refines (fun ms ms' => ms.map Member.core = ms'.map Member.core) (mergeInterfaces members acc decls)
      (mergeInterfaces members' acc' decls') := by
  induction decls generalizing decls' acc acc' with
  | nil =>
    obtain rfl := List.map_eq_nil_iff.mp h.symm
    exact Refines.pure hacc
  | cons decl decls ih =>
    obtain ⟨decl', decls', rfl, hdecl, hdecls⟩ := List.map_eq_cons_iff.mp h.symm
    have hbases : decl'.bases = decl.bases := (congrArg InterfaceDecl.bases hdecl :)
    have hown : decl'.members.map Member.core = decl.members.map Member.core := congrArg InterfaceDecl.members hdecl
    rw [mergeInterfaces, mergeInterfaces, hbases]
    refine (mergeBases_refines hmembers decl.bases hacc).bind fun ms ms' hms => ih hdecls.symm ?_
    rw [Member.merge_core, Member.merge_core, Member.fields_core, Member.fields_core, hms, hown]

theorem namedMembers_refines (hm : m.core = m'.core) (name : String) :
    Refines SameMembers (namedMembers m members name) (namedMembers m' members' name) := by
  rw [namedMembers, namedMembers]
  rcases Module.alias?_cases hm name with ⟨halias, halias'⟩ | ⟨decl, decl', halias, halias', htarget⟩
  · rw [halias, halias']
    rcases Module.interfaces_cases hm name with ⟨hnone, hnone'⟩ | ⟨_, _, _, _, hsome, hsome', hdecls⟩
    · rw [hnone, hnone']
      exact Refines.pure rfl
    · rw [hsome, hsome']
      exact Refines.guarded name rfl ((mergeInterfaces_refines hmembers hdecls rfl).map fun _ _ => SameMembers.of_eq)
  · rw [halias, halias']
    exact Refines.guarded name rfl (hmembers _ _ htarget)

end Members

theorem membersOf_union {ts : List TypeExpr} {only : TypeExpr} (honly : withoutNullish ts = [only]) :
    membersOf m (n + 1) (.union ts) = membersOf m n only := by
  rw [membersOf, honly]

/-- **Types that are the same but for null have the same members but for null**, in modules that are the same so. -/
theorem membersOf_refines (hm : m.core = m'.core) (hk : 2 * n ≤ k) (h : t.core = t'.core) :
    Refines SameMembers (membersOf m n t) (membersOf m' k t') := by
  refine refines_of_core (fun _ => rfl) (fun _ _ _ => membersOf_union) (fun _ _ _ => membersOf_union) ?_ hk h
  intro n k hmembers t t' hform
  cases hform with
  | reference name hargs =>
    cases hutility : utility? name with
    | none =>
      rw [membersOf_reference (by simp [hutility]), membersOf_reference (by simp [hutility])]
      exact namedMembers_refines hmembers hm name
    | some adapted =>
      rcases cases_of_map_eq hargs with ⟨rfl, rfl⟩ | ⟨arg, arg', rfl, rfl, harg⟩ | ⟨_, _, _, _, _, _, rfl, rfl⟩
      · rw [membersOf_reference (by simp), membersOf_reference (by simp)]
        exact namedMembers_refines hmembers hm name
      · rw [membersOf_utility? hutility, membersOf_utility? hutility]
        exact (hmembers arg arg' harg).map fun _ _ => SameMembers.adapted hutility
      · rw [membersOf_reference (by simp), membersOf_reference (by simp)]
        exact namedMembers_refines hmembers hm name
  | union hts =>
    rw [membersOf, membersOf]
    rcases cases_of_map_eq hts with ⟨h, h'⟩ | ⟨only, only', h, h', honly⟩ | ⟨_, _, _, _, _, _, h, h'⟩
    · rw [h, h']
      exact Refines.pure rfl
    · rw [h, h']
      exact hmembers only only' (core_eq_of_cleared honly)
    · rw [h, h']
      exact Refines.pure rfl
  | intersection hts => exact mergeParts_refines hmembers hts rfl
  | object hms =>
    exact Refines.pure (SameMembers.of_eq (by rw [Member.fields_core, Member.fields_core, hms]))
  | _ => exact Refines.pure rfl

/-- The same holds at the depths that are taken for the two types, at which the members of both are told. -/
theorem objectMembers_refines (hm : m.core = m'.core) (h : t.core = t'.core) :
    Refines SameMembers (objectMembers m t) (objectMembers m' t') := by
  intro names found names' hrun
  obtain ⟨found', hfound', hsame⟩ := membersOf_refines hm le_rfl h names found names' hrun
  obtain ⟨again, hagain⟩ := objectMembers_ends m' t' names
  obtain ⟨rfl, rfl, -⟩ := membersOf_related m' _ _ t' _ _ _ _ _ hagain hfound'
  exact ⟨again, hagain, hsame⟩

/-! ## Nodes -/

theorem isFreeText_eq (t : TypeExpr) : isFreeText t =
    (1 < (t.alternatives.map cleared).length && (t.alternatives.map cleared).all fun u => u.stringLiteral?.isSome) := by
  cases t with
  | union ts => simp [isFreeText, alternatives, Function.comp_def]
  | _ => rfl

theorem literals?_eq (t : TypeExpr) : literals? t =
    if t.stringLiteral?.isSome then none
    else ((t.alternatives.map cleared).mapM stringLiteral?).filter fun texts => !texts.isEmpty := by
  cases t with
  | union ts =>
    have hmap : ((withoutNullish ts).map cleared).mapM stringLiteral? = (withoutNullish ts).mapM stringLiteral? := by
      rw [List.mapM_map]
      exact congrArg (List.mapM · _) (funext stringLiteral?_cleared)
    rw [literals?, alternatives, hmap]
    rfl
  | literal value => cases value <;> rfl
  | _ => rfl

theorem arrayNode_eq (node : TypeExpr → Resolving Node) (t : TypeExpr) :
    arrayNode node t =
      match t.alternatives with
      | [] => Node.array <$> node t
      | [only] => Node.array <$> node only
      | several => Node.unionArray <$> several.mapM node := by
  cases t <;> rfl

section Nodes

variable {node node' : TypeExpr → Resolving Node}
  (hnode : ∀ t t', t.core = t'.core → Refines (· = ·) (node t) (node' t'))
include hnode

theorem propertyNode_refines (h : t.core = t'.core) : Refines (· = ·) (propertyNode node t) (propertyNode node' t') := by
  have htext : isFreeText t = isFreeText t' := by rw [isFreeText_eq, isFreeText_eq, core_eq_core_iff.mp h]
  rw [propertyNode, propertyNode, htext]
  split
  · exact Refines.pure rfl
  · exact hnode t t' h

theorem memberNode_refines {x x' : Member} (h : x.core = x'.core) :
    Refines (· = ·) (memberNode node x) (memberNode node' x') := by
  have htype : x.type.map core = x'.type.map core := congrArg MemberOf.type h
  rw [memberNode, memberNode]
  cases ht : x.type with
  | none =>
    rw [ht] at htype
    rw [Option.map_eq_none_iff.mp htype.symm]
    exact Refines.pure rfl
  | some t =>
    rw [ht] at htype
    obtain ⟨t', ht', hcore⟩ := Option.map_eq_some_iff.mp htype.symm
    rw [ht']
    exact propertyNode_refines hnode hcore.symm

theorem objectNode_refines {ms ms' : List Member} (h : ms.map Member.core = ms'.map Member.core) :
    Refines (· = ·) (objectNode node ms) (objectNode node' ms') := by
  have hfields : (Member.fields ms).map Member.core = (Member.fields ms').map Member.core := by
    rw [Member.fields_core, Member.fields_core, h]
  refine (Refines.mapM hfields fun x x' hx => ?_).map fun _ _ => congrArg Node.object
  have hkey : x.key = x'.key := (congrArg MemberOf.key hx :)
  rw [hkey]
  exact (memberNode_refines hnode hx).map fun _ _ => congrArg (Prod.mk x'.key)

theorem several_refines {ts ts' : List TypeExpr} (h : ts.map cleared = ts'.map cleared) :
    Refines (· = ·) (ts.mapM node) (ts'.mapM node') :=
  Refines.mapM h fun u u' hu => hnode u u' (core_eq_of_cleared hu)

theorem arrayNode_refines (h : t.core = t'.core) : Refines (· = ·) (arrayNode node t) (arrayNode node' t') := by
  have halternatives := core_eq_core_iff.mp h
  rw [arrayNode_eq, arrayNode_eq]
  rcases cases_of_map_eq halternatives with ⟨hnil, hnil'⟩ | ⟨only, only', ht, ht', honly⟩ | ⟨_, _, _, _, _, _, ht, ht'⟩
  · rw [hnil, hnil']
    exact (hnode t t' h).map fun _ _ => congrArg Node.array
  · rw [ht, ht']
    exact (hnode only only' (core_eq_of_cleared honly)).map fun _ _ => congrArg Node.array
  · rw [ht, ht'] at halternatives ⊢
    exact (several_refines hnode halternatives).map fun _ _ => congrArg Node.unionArray

theorem unionNode_refines {ts ts' : List TypeExpr} (h : (withoutNullish ts).map cleared = (withoutNullish ts').map cleared) :
    Refines (· = ·) (unionNode node ts) (unionNode node' ts') := by
  rw [unionNode, unionNode]
  rcases cases_of_map_eq h with ⟨hnil, hnil'⟩ | ⟨only, only', ht, ht', honly⟩ | ⟨_, _, _, _, _, _, ht, ht'⟩
  · rw [hnil, hnil']
    exact Refines.pure rfl
  · rw [ht, ht']
    exact hnode only only' (core_eq_of_cleared honly)
  · rw [ht, ht'] at h ⊢
    exact (several_refines hnode h).map fun _ _ => congrArg Node.union

theorem aliasNode_refines (h : t.core = t'.core) (hliteral : t.stringLiteral? = t'.stringLiteral?) :
    Refines (· = ·) (aliasNode node t) (aliasNode node' t') := by
  have hliterals : literals? t = literals? t' := by rw [literals?_eq, literals?_eq, hliteral, core_eq_core_iff.mp h]
  rw [aliasNode, aliasNode, hliterals]
  split
  · exact Refines.pure rfl
  · exact hnode t t' h

theorem interfaceNode_refines (hm : m.core = m'.core) {decls decls' : List InterfaceDecl}
    (h : decls.map InterfaceDecl.core = decls'.map InterfaceDecl.core) :
    Refines (· = ·) (mergeInterfaces (objectMembers m) [] decls >>= objectNode node)
      (mergeInterfaces (objectMembers m') [] decls' >>= objectNode node') :=
  (mergeInterfaces_refines (fun _ _ => objectMembers_refines hm) h rfl).bind fun _ _ => objectNode_refines hnode

theorem namedNode_refines (hm : m.core = m'.core) (hliteral : m.LiteralAliases m') (name : String) :
    Refines (· = ·) (namedNode m node name) (namedNode m' node' name) := by
  rw [namedNode, namedNode]
  rcases Module.alias?_cases hm name with ⟨halias, halias'⟩ | ⟨decl, decl', halias, halias', htarget⟩
  · rw [halias, halias']
    rcases Module.interfaces_cases hm name with ⟨hnone, hnone'⟩ | ⟨_, _, _, _, hsome, hsome', hdecls⟩
    · rw [hnone, hnone', Module.enum?_eq hm]
      cases m'.enum? name <;> exact Refines.pure rfl
    · rw [hsome, hsome']
      exact Refines.guarded name rfl (interfaceNode_refines hnode hm hdecls)
  · rw [halias, halias']
    exact Refines.guarded name rfl (aliasNode_refines hnode htarget (hliteral name decl decl' halias halias'))

end Nodes

/-- A built-in type with what is said about null left out. -/
def BuiltIn.core : BuiltIn → BuiltIn
  | .array element => .array element.core
  | .known node => .known node
  | .same arg => .same arg.core

theorem builtIn?_core (name : String) (args : List TypeExpr) :
    builtIn? name (args.map TypeExpr.core) = (builtIn? name args).map BuiltIn.core := by
  unfold builtIn?
  rcases args with _ | ⟨arg, _ | ⟨_, _⟩⟩ <;> simp only [List.map_nil, List.map_cons] <;> split_ifs <;> rfl

theorem keysNode_eq (hm : m.core = m'.core) (name : String) : keysNode m name = keysNode m' name := by
  rw [keysNode, keysNode, Module.enum?_eq hm, Module.binding?_eq hm]

theorem nodeOf_union {ts : List TypeExpr} {only : TypeExpr} (honly : withoutNullish ts = [only]) :
    nodeOf m (n + 1) (.union ts) = nodeOf m n only := by
  rw [nodeOf, unionNode, honly]

theorem reference_refines (hm : m.core = m'.core) (hliteral : m.LiteralAliases m')
    (hnode : ∀ t t', t.core = t'.core → Refines (· = ·) (nodeOf m n t) (nodeOf m' k t')) (name : String)
    {args args' : List TypeExpr} (hargs : args.map TypeExpr.core = args'.map TypeExpr.core) :
    Refines (· = ·) (nodeOf m (n + 1) (.reference name args)) (nodeOf m' (k + 1) (.reference name args')) := by
  have hbuiltIn : (builtIn? name args).map BuiltIn.core = (builtIn? name args').map BuiltIn.core := by
    rw [← builtIn?_core, ← builtIn?_core, hargs]
  simp only [nodeOf]
  cases hb : builtIn? name args with
  | none =>
    rw [hb] at hbuiltIn
    rw [Option.map_eq_none_iff.mp hbuiltIn.symm]
    exact namedNode_refines hnode hm hliteral name
  | some builtIn =>
    rw [hb] at hbuiltIn
    obtain ⟨builtIn', hb', hcore⟩ := Option.map_eq_some_iff.mp hbuiltIn.symm
    rw [hb']
    cases builtIn <;> cases builtIn' <;> simp only [BuiltIn.core, reduceCtorEq] at hcore
    case array.array => exact arrayNode_refines hnode (BuiltIn.array.inj hcore).symm
    case known.known => exact Refines.pure (BuiltIn.known.inj hcore).symm
    case same.same => exact hnode _ _ (BuiltIn.same.inj hcore).symm

/-- **Types that are the same but for null have the same node**, in modules that are the same so. -/
theorem nodeOf_refines (hm : m.core = m'.core) (hliteral : m.LiteralAliases m') (hk : 2 * n ≤ k)
    (h : t.core = t'.core) : Refines (· = ·) (nodeOf m n t) (nodeOf m' k t') := by
  refine refines_of_core (fun _ => rfl) (fun _ _ _ => nodeOf_union) (fun _ _ _ => nodeOf_union) ?_ hk h
  intro n k hnode t t' hform
  cases hform with
  | array helement => exact arrayNode_refines hnode helement
  | union hts => exact unionNode_refines hnode hts
  | object hms => exact objectNode_refines hnode hms
  | intersection hts =>
    rw [nodeOf, nodeOf]
    refine (objectMembers_refines hm ?_).bind fun found found' hfound => ?_
    · exact core_eq_of_cleared (by rw [cleared, cleared, coreAll_eq_map, coreAll_eq_map, hts])
    · rcases hfound.cases with ⟨rfl, rfl⟩ | ⟨ms, ms', rfl, rfl, hms⟩
      · exact Refines.pure rfl
      · exact objectNode_refines hnode hms
  | reference name hargs => exact reference_refines hm hliteral hnode name hargs
  | keyofTypeof name => exact Refines.pure (keysNode_eq hm name)
  | _ => exact Refines.pure rfl

/-! ## Any depth -/

/-- The node of a type is the same at all depths at which it is told. -/
theorem nodeOf_eq_of_run {names xs ys : List String} {node node' : Node} (hn : (nodeOf m n t).run names = some (node, xs))
    (hk : (nodeOf m k t).run names = some (node', ys)) : node = node' := by
  have hsame : m.LiteralAliases m := fun name decl decl' h h' => by rw [Option.some.inj (h.symm.trans h')]
  obtain ⟨_, hrun, rfl⟩ := nodeOf_refines rfl hsame (Nat.mul_le_mul_left 2 (le_max_left n k)) (rfl : t.core = t.core)
    names node xs hn
  obtain ⟨_, hrun', rfl⟩ := nodeOf_refines rfl hsame (Nat.mul_le_mul_left 2 (le_max_right n k)) (rfl : t.core = t.core)
    names node' ys hk
  exact (Prod.mk.inj (Option.some.inj (hrun.symm.trans hrun'))).1

/-- A classification that ends at any depth ends at the depth that is taken for its type. -/
theorem ends_depthFor {names : List String} (h : Ends (nodeOf m n t) names) : Ends (nodeOf m (m.depthFor t) t) names := by
  let v : Visit := ⟨names, t⟩
  have hlength : (v.types m).length = m.declaredTypes.length + t.within.length := List.length_append
  have hahead : (ahead m (v.types m) v).ncard ≤ (v.types m).length := ncard_ahead_le m (v.types m) v
  have hfree : m.free v.names * ((v.types m).length + 1) ≤ m.items.length * ((v.types m).length + 2) :=
    Nat.mul_le_mul (m.free_le names) (Nat.le_succ _)
  refine endsAt_of_not_leadsBack (v := v) (List.Subset.refl (v.types m)) (fun hback => hback.not_endsAt n h) ?_
  rw [visitDepth, Module.depthFor, ← hlength, Nat.succ_mul]
  omega

/-- A type has a node when it is told at any depth. -/
theorem nodeOf_eq_some_iff {node : Node} :
    m.nodeOf t = some node ↔ ∃ n names, (nodeOf m n t).run [] = some (node, names) := by
  rw [Module.nodeOf, StateT.run'_eq]
  constructor
  · intro h
    obtain ⟨⟨_, names⟩, hrun, rfl⟩ := Option.map_eq_some_iff.mp h
    exact ⟨_, names, hrun⟩
  · rintro ⟨n, names, hrun⟩
    obtain ⟨rfl, -⟩ := nodeOf_scoped m n t [] node names hrun
    obtain ⟨node', hnode'⟩ := ends_depthFor ⟨node, hrun⟩
    rw [hnode', nodeOf_eq_of_run hrun hnode']
    rfl

theorem propertyNodeOf_of_not_isFreeText (h : isFreeText t = false) : m.propertyNodeOf t = m.nodeOf t := by
  rw [Module.propertyNodeOf, propertyNode, h, Module.nodeOf]
  rfl

/-- A property has the node that it has at any depth. -/
theorem propertyNodeOf_of_run {node : Node} {names : List String}
    (h : (propertyNode (nodeOf m n) t).run [] = some (node, names)) : m.propertyNodeOf t = some node := by
  cases htext : isFreeText t with
  | true =>
    rw [propertyNode, htext] at h
    rw [Module.propertyNodeOf, propertyNode, htext]
    exact congrArg (Option.map Prod.fst) h
  | false =>
    rw [propertyNode, htext] at h
    rw [propertyNodeOf_of_not_isFreeText htext]
    exact nodeOf_eq_some_iff.mpr ⟨n, names, h⟩

theorem propertyNodeOf_of_core (hm : m.core = m'.core) (hliteral : m.LiteralAliases m') (h : t.core = t'.core) {node : Node}
    (hnode : m.propertyNodeOf t = some node) : m'.propertyNodeOf t' = some node := by
  rw [Module.propertyNodeOf, StateT.run'_eq] at hnode
  obtain ⟨⟨_, names⟩, hrun, rfl⟩ := Option.map_eq_some_iff.mp hnode
  obtain ⟨_, hrun', rfl⟩ := propertyNode_refines (fun _ _ => nodeOf_refines hm hliteral le_rfl) h [] _ names hrun
  exact propertyNodeOf_of_run hrun'

/-! ## Lone members -/

section Lone

variable {ts : List TypeExpr} (hlone : withoutNullish ts = [t])
include hlone

/-- A lone member of a union is told by itself. -/
theorem nodeOf_lone : m.nodeOf (.union ts) = m.nodeOf t := by
  refine Option.ext fun node => ?_
  rw [nodeOf_eq_some_iff, nodeOf_eq_some_iff]
  constructor
  · rintro ⟨n, names, hrun⟩
    cases n with
    | zero => cases hrun
    | succ n => exact ⟨n, names, by rwa [nodeOf_union hlone] at hrun⟩
  · rintro ⟨n, names, hrun⟩
    exact ⟨n + 1, names, by rwa [nodeOf_union hlone]⟩

theorem propertyNodeOf_lone : m.propertyNodeOf (.union ts) = m.nodeOf t := by
  rw [propertyNodeOf_of_not_isFreeText (by simp [isFreeText, hlone]), nodeOf_lone hlone]

theorem propertyNodeOf_lone_element : m.propertyNodeOf (.array (.union ts)) = (m.nodeOf t).map Node.array := by
  have hrun : ∀ n, nodeOf m (n + 1) (.array (.union ts)) = Node.array <$> nodeOf m n t := by
    intro n
    rw [nodeOf, arrayNode, hlone]
  refine Option.ext fun node => ?_
  rw [propertyNodeOf_of_not_isFreeText rfl, nodeOf_eq_some_iff, Option.map_eq_some_iff]
  constructor
  · rintro ⟨n, names, hnode⟩
    cases n with
    | zero => cases hnode
    | succ n =>
      rw [hrun, StateT.run_map] at hnode
      obtain ⟨⟨element, _⟩, helement, heq⟩ := Option.map_eq_some_iff.mp hnode
      obtain ⟨rfl, rfl⟩ := Prod.mk.inj heq
      exact ⟨element, nodeOf_eq_some_iff.mpr ⟨n, _, helement⟩, rfl⟩
  · rintro ⟨element, helement, rfl⟩
    obtain ⟨n, names, hnode⟩ := nodeOf_eq_some_iff.mp helement
    refine ⟨n + 1, names, ?_⟩
    rw [hrun, StateT.run_map, hnode]
    rfl

end Lone

/-! ## Aliases of lone literals -/

/-- A type that is the same but for null as a string literal, and is not the literal, has it for its only literal. -/
theorem literals?_of_core {s : String} (h : t.core = (TypeExpr.literal (.string s)).core) (hne : t ≠ .literal (.string s)) :
    literals? t = some [s] := by
  cases hunion : t.isUnion with
  | false =>
    have hcleared := cleared_eq_of_core hunion rfl h
    cases t <;> simp_all [cleared]
  | true =>
    cases t with
    | union ts =>
      obtain ⟨only, honly, hcleared⟩ := exists_of_core_union rfl h
      have hliteral : only.stringLiteral? = some s := by
        rw [← stringLiteral?_cleared, hcleared]
        rfl
      rw [literals?, honly, List.mapM_cons, hliteral]
      rfl
    | _ => cases hunion

/-- The node of a property whose type is an alias that is told at once. -/
theorem propertyNodeOf_alias {name : String} {decl : AliasDecl} {node : Node} (halias : m.alias? name = some decl)
    (hbuiltIn : builtIn? name [] = none) (h : aliasNode (nodeOf m 1) decl.type = pure node) :
    m.propertyNodeOf (.reference name []) = some node := by
  have hrun : (propertyNode (nodeOf m 2) (.reference name [])).run [] = some (node, []) := by
    rw [propertyNode, if_neg (by simp [isFreeText]), nodeOf, hbuiltIn, namedNode, halias, run_guarded, h]
    rfl
  exact propertyNodeOf_of_run hrun

/-- **Null does not change a node.** Two modules and two types may differ in what they say about null, by unions with any
members `null`, `undefined` and `void`: of the types of properties, of the elements of arrays, and of the targets of aliases.
A property of the one type in the one module has the node of a property of the other type in the other one, or none in both,
as long as the same aliases stand for lone string literals. Such an alias is told as its literal, and one that is made
nullable as an enum of the literal. A type that is the only other member of a union with null, as a union in parentheses may
be, is told by itself, and not as the type of a property or of the elements of an array. -/
theorem same_node_but_for_null (hm : m.core = m'.core) :
    (∀ t t', m.LiteralAliases m' → t.core = t'.core → m.propertyNodeOf t = m'.propertyNodeOf t') ∧
    (∀ name decl decl' s, builtIn? name [] = none → m.alias? name = some decl → m'.alias? name = some decl' →
      decl.type = .literal (.string s) → decl'.type ≠ .literal (.string s) →
        m.propertyNodeOf (.reference name []) = some (.primitive .string (some s)) ∧
          m'.propertyNodeOf (.reference name []) = some (.enum [.name s])) ∧
    ∀ t ts, withoutNullish ts = [t] →
      m.propertyNodeOf (.union ts) = m.nodeOf t ∧ m.propertyNodeOf (.array (.union ts)) = (m.nodeOf t).map Node.array := by
  refine ⟨fun t t' hliteral ht => ?_, ?_, fun t ts hlone => ⟨propertyNodeOf_lone hlone, propertyNodeOf_lone_element hlone⟩⟩
  · refine Option.ext fun node => ⟨propertyNodeOf_of_core hm hliteral ht, propertyNodeOf_of_core hm.symm ?_ ht.symm⟩
    exact fun name decl decl' h h' => (hliteral name decl' decl h' h).symm
  · intro name decl decl' s hbuiltIn halias halias' htype htype'
    have hcore : decl'.type.core = (TypeExpr.literal (.string s)).core := by
      rcases Module.alias?_cases hm name with ⟨hnone, -⟩ | ⟨_, _, h, h', hcore⟩
      · cases halias.symm.trans hnone
      · obtain rfl := Option.some.inj (halias.symm.trans h)
        obtain rfl := Option.some.inj (halias'.symm.trans h')
        rw [← hcore, htype]
    refine ⟨propertyNodeOf_alias halias hbuiltIn ?_, propertyNodeOf_alias halias' hbuiltIn ?_⟩
    · rw [htype]
      rfl
    · rw [aliasNode, literals?_of_core hcore htype']
      rfl

/-- A module with an alias of two texts and an interface with a member of a list of these. -/
def textsModule : Module :=
  ⟨[.alias ⟨"T", .union [.literal (.string "a"), .literal (.string "b")]⟩,
    .interface ⟨"I", [], [⟨"x", false, some (.array (.reference "T" [])), none, false⟩]⟩]⟩

/-- The module with an alias, elements and a member that may be null. -/
def nullableTextsModule : Module :=
  ⟨[.alias ⟨"T", .union [.literal (.string "a"), .keyword "null", .literal (.string "b")]⟩,
    .interface ⟨"I", [], [⟨"x", false, some (.union [.keyword "undefined",
      .array (.union [.reference "T" [], .keyword "void", .keyword "null"])]), none, false⟩]⟩]⟩

/-- The interface has the same node, and so does its union with null. -/
theorem same_node_but_for_null_texts :
    textsModule.core = nullableTextsModule.core ∧ textsModule.LiteralAliases nullableTextsModule ∧
    (TypeExpr.reference "I" []).core = (TypeExpr.union [.keyword "null", .reference "I" []]).core ∧
    textsModule.propertyNodeOf (.reference "I" []) =
      nullableTextsModule.propertyNodeOf (.union [.keyword "null", .reference "I" []]) := by
  have hm : textsModule.core = nullableTextsModule.core := rfl
  have hliteral : textsModule.LiteralAliases nullableTextsModule := by
    intro name decl decl' h h'
    have hdecl := (Module.mem_items_of_alias? h).1
    have hdecl' := (Module.mem_items_of_alias? h').1
    simp only [textsModule, nullableTextsModule, List.mem_cons, List.not_mem_nil, Item.alias.injEq, reduceCtorEq, or_false]
      at hdecl hdecl'
    rw [hdecl, hdecl']
    rfl
  exact ⟨hm, hliteral, (core_union rfl).symm, (same_node_but_for_null hm).1 _ _ hliteral (core_union rfl).symm⟩

/-- A module whose handler takes a property of the type `T`. -/
def aliasedProperty (target : TypeExpr) : Module :=
  ⟨[.alias ⟨"T", target⟩,
    .function ⟨some "handler", ⟨[⟨.ident "i", false, some (.object [⟨"x", false, some (.reference "T" []), none, false⟩]),
      false⟩], false⟩, .named⟩]⟩

/-- **Null changes the node** of an alias of a lone literal. -/
theorem null_changes_lone_literal :
    Module.ofSource "type T = 'a';\nexport function handler(i: \x7b x: T \x7d) \x7b\x7d" =
      .ok (aliasedProperty (.literal (.string "a"))) ∧
    Module.ofSource "type T = 'a' | null;\nexport function handler(i: \x7b x: T \x7d) \x7b\x7d" =
      .ok (aliasedProperty (.union [.literal (.string "a"), .keyword "null"])) ∧
    (aliasedProperty (.literal (.string "a"))).propertyNodeOf (.reference "T" []) ≠
      (aliasedProperty (.union [.literal (.string "a"), .keyword "null"])).propertyNodeOf (.reference "T" []) := by
  have hliteral : (aliasedProperty (.literal (.string "a"))).propertyNodeOf (.reference "T" []) =
    some (.primitive .string (some "a")) := rfl
  have hnullable : (aliasedProperty (.union [.literal (.string "a"), .keyword "null"])).propertyNodeOf (.reference "T" []) =
    some (.enum [.name "a"]) := rfl
  refine ⟨rfl, rfl, ?_⟩
  rw [hliteral, hnullable]
  simp

end AppBundler.Classify
