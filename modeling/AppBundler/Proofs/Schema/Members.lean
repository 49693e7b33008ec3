import Mathlib.Data.Finset.Card
import AppBundler.Proofs.Schema.Resolving
/-!
# Members of types

Looking up the members of a type always ends: every step goes into a part of the type, or into the definition of
a name that is not being followed yet, and a module defines only so many names. The members that are found are
told by types that the module declares, or that stand in the type that was asked for.
-/

namespace AppBundler

/-! ## Types in types -/

namespace TypeExpr

variable {t u : TypeExpr} {ts : List TypeExpr}

theorem self_mem_within (t : TypeExpr) : t ∈ t.within := by
  cases t <;> simp [within]

theorem mem_withinAll : u ∈ withinAll ts ↔ ∃ t ∈ ts, u ∈ t.within := by
  induction ts with
  | nil => simp [withinAll]
  | cons t ts ih => simp [withinAll, ih]

theorem mem_withinMember {x : Member} : u ∈ withinMember x ↔ ∃ t ∈ x.type, u ∈ t.within := by
  obtain ⟨key, optional, type, doc, method⟩ := x
  cases type <;> simp [withinMember, withinOption]

theorem mem_withinMembers {ms : List Member} : u ∈ withinMembers ms ↔ ∃ x ∈ ms, ∃ t ∈ x.type, u ∈ t.within := by
  induction ms with
  | nil => simp [withinMembers]
  | cons x ms ih => simp [withinMembers, ih, mem_withinMember]

mutual

/-- What is in a type that is in another one is in that one. -/
theorem within_sublist : (t : TypeExpr) → u ∈ t.within → u.within.Sublist t.within
  | .reference name args, h => by
    rcases List.mem_cons.mp h with rfl | h
    · exact List.Sublist.refl _
    · exact (withinAll_sublist args h).cons _
  | .array element, h => by
    rcases List.mem_cons.mp h with rfl | h
    · exact List.Sublist.refl _
    · exact (within_sublist element h).cons _
  | .union ts, h => by
    rcases List.mem_cons.mp h with rfl | h
    · exact List.Sublist.refl _
    · exact (withinAll_sublist ts h).cons _
  | .intersection ts, h => by
    rcases List.mem_cons.mp h with rfl | h
    · exact List.Sublist.refl _
    · exact (withinAll_sublist ts h).cons _
  | .object ms, h => by
    rcases List.mem_cons.mp h with rfl | h
    · exact List.Sublist.refl _
    · exact (withinMembers_sublist ms h).cons _
  | .keyword _, h | .literal _, h | .keyofTypeof _, h | .other, h => by
    rw [List.mem_singleton.mp h]

theorem withinAll_sublist : (ts : List TypeExpr) → u ∈ withinAll ts → u.within.Sublist (withinAll ts)
  | t :: ts, h => by
    rcases List.mem_append.mp h with h | h
    · exact (within_sublist t h).trans (List.sublist_append_left _ _)
    · exact (withinAll_sublist ts h).trans (List.sublist_append_right _ _)

theorem withinMembers_sublist : (ms : List (MemberOf TypeExpr)) → u ∈ withinMembers ms →
    u.within.Sublist (withinMembers ms)
  | x :: ms, h => by
    rcases List.mem_append.mp h with h | h
    · exact (withinMember_sublist x h).trans (List.sublist_append_left _ _)
    · exact (withinMembers_sublist ms h).trans (List.sublist_append_right _ _)

theorem withinMember_sublist : (x : MemberOf TypeExpr) → u ∈ withinMember x → u.within.Sublist (withinMember x)
  | ⟨_, _, type, _, _⟩, h => withinOption_sublist type h

theorem withinOption_sublist : (type : Option TypeExpr) → u ∈ withinOption type →
    u.within.Sublist (withinOption type)
  | some t, h => within_sublist t h

end

theorem length_within_pos (t : TypeExpr) : 0 < t.within.length := List.length_pos_of_mem t.self_mem_within

/-- A part of a type is smaller than the type. -/
theorem length_within_lt (h : u ∈ t.within.tail) : u.within.length < t.within.length := by
  have hsublist : u.within.Sublist t.within.tail := by
    cases t with
    | reference name args => exact withinAll_sublist args h
    | array element => exact within_sublist element h
    | union ts => exact withinAll_sublist ts h
    | intersection ts => exact withinAll_sublist ts h
    | object ms => exact withinMembers_sublist ms h
    | _ => cases h
  refine hsublist.length_le.trans_lt ?_
  rw [List.length_tail]
  exact Nat.sub_lt t.length_within_pos Nat.one_pos

theorem mem_withinAll_of_mem (h : t ∈ ts) : t ∈ withinAll ts := mem_withinAll.mpr ⟨t, h, t.self_mem_within⟩

theorem length_within_le (h : t ∈ ts) : t.within.length ≤ (withinAll ts).length :=
  (withinAll_sublist ts (mem_withinAll_of_mem h)).length_le

theorem mem_of_mem_withoutNullish (h : t ∈ withoutNullish ts) : t ∈ ts := List.mem_of_mem_filter h

end TypeExpr

/-! ## What a module declares -/

namespace Module

variable {m : Module} {name : String} {u : TypeExpr}

/-- The names of the aliases and interfaces of a module. -/
def typeNames (m : Module) : List String :=
  m.items.filterMap fun
    | .alias decl => some decl.name
    | .interface decl => some decl.name
    | _ => none

theorem mem_items_of_alias? {decl : AliasDecl} (h : m.alias? name = some decl) :
    .alias decl ∈ m.items ∧ decl.name = name := by
  obtain ⟨item, hitem, heq⟩ := List.exists_of_findSome?_eq_some h
  split at heq
  · split at heq
    · obtain rfl := Option.some.inj heq
      exact ⟨hitem, ‹_›⟩
    · cases heq
  · cases heq

theorem mem_items_of_interfaces {decl : InterfaceDecl} (h : decl ∈ m.interfaces name) :
    .interface decl ∈ m.items ∧ decl.name = name := by
  obtain ⟨item, hitem, heq⟩ := List.mem_filterMap.mp h
  split at heq
  · split at heq
    · obtain rfl := Option.some.inj heq
      exact ⟨hitem, ‹_›⟩
    · cases heq
  · cases heq

theorem mem_typeNames_of_alias? {decl : AliasDecl} (h : m.alias? name = some decl) : name ∈ m.typeNames := by
  obtain ⟨hitem, rfl⟩ := mem_items_of_alias? h
  exact List.mem_filterMap.mpr ⟨_, hitem, rfl⟩

theorem mem_typeNames_of_interfaces {decl : InterfaceDecl} (h : decl ∈ m.interfaces name) : name ∈ m.typeNames := by
  obtain ⟨hitem, rfl⟩ := mem_items_of_interfaces h
  exact List.mem_filterMap.mpr ⟨_, hitem, rfl⟩

theorem mem_declaredTypes_of_alias? {decl : AliasDecl} (h : m.alias? name = some decl) (hu : u ∈ decl.type.within) :
    u ∈ m.declaredTypes :=
  List.mem_flatMap.mpr ⟨_, (mem_items_of_alias? h).1, hu⟩

theorem mem_declaredTypes_of_base {decl : InterfaceDecl} {base : String} (h : decl ∈ m.interfaces name)
    (hbase : base ∈ decl.bases) : .reference base [] ∈ m.declaredTypes :=
  List.mem_flatMap.mpr ⟨_, (mem_items_of_interfaces h).1, List.mem_append_left _ (List.mem_map_of_mem hbase)⟩

theorem mem_declaredTypes_of_member {decl : InterfaceDecl} {x : Member} {t : TypeExpr} (h : decl ∈ m.interfaces name)
    (hx : x ∈ decl.members) (ht : t ∈ x.type) (hu : u ∈ t.within) : u ∈ m.declaredTypes :=
  List.mem_flatMap.mpr ⟨_, (mem_items_of_interfaces h).1,
    List.mem_append_right _ (TypeExpr.mem_withinMembers.mpr ⟨x, hx, t, ht, hu⟩)⟩

/-- What is in a type that a module names is named too. -/
theorem within_sublist_declaredTypes (h : u ∈ m.declaredTypes) : u.within.Sublist m.declaredTypes := by
  obtain ⟨item, hitem, hu⟩ := List.mem_flatMap.mp h
  rw [declaredTypes, List.flatMap_def]
  refine List.Sublist.trans ?_ (List.sublist_flatten_of_mem (List.mem_map_of_mem hitem))
  split at hu
  · exact TypeExpr.within_sublist _ hu
  · rcases List.mem_append.mp hu with hbase | hmember
    · obtain ⟨base, -, rfl⟩ := List.mem_map.mp hbase
      exact (List.singleton_sublist.mpr hbase).trans (List.sublist_append_left _ _)
    · exact (TypeExpr.withinMembers_sublist _ hmember).trans (List.sublist_append_right _ _)
  · cases hu

/-- The number of names that can still be followed. -/
def free (m : Module) (names : List String) : Nat := (m.typeNames.toFinset \ names.toFinset).card

theorem free_le (m : Module) (names : List String) : m.free names ≤ m.items.length :=
  (Finset.card_le_card Finset.sdiff_subset).trans
    ((List.toFinset_card_le _).trans (List.length_filterMap_le _ _))

/-- A name that is followed cannot be followed again. -/
theorem free_cons_lt {names : List String} (hname : name ∈ m.typeNames) (hnew : name ∉ names) :
    m.free (name :: names) < m.free names := by
  refine Finset.card_lt_card (Finset.ssubset_iff_subset_ne.mpr ⟨?_, fun heq => ?_⟩)
  · exact Finset.sdiff_subset_sdiff (Finset.Subset.refl _) fun a ha => by
      simp only [List.mem_toFinset, List.mem_cons] at ha ⊢
      exact Or.inr ha
  · have hmem : name ∈ m.typeNames.toFinset \ names.toFinset := by simp [hname, hnew]
    rw [← heq] at hmem
    simp at hmem

end Module

/-! ## Members that are found -/

namespace Member

/-- The types of members are among some. -/
def TypesIn (known : TypeExpr → Prop) (ms : List Member) : Prop := ∀ x ∈ ms, ∀ t ∈ x.type, known t

namespace TypesIn

variable {known : TypeExpr → Prop} {ms into : List Member}

theorem fields (h : TypesIn known ms) : TypesIn known (fields ms) := fun x hx => h x (List.mem_of_mem_filter hx)

theorem withOptional (h : TypesIn known ms) (optional : Bool) : TypesIn known (withOptional optional ms) := by
  intro x hx
  obtain ⟨y, hy, rfl⟩ := List.mem_map.mp hx
  exact h y hy

theorem put {x : Member} (hx : ∀ t ∈ x.type, known t) (h : TypesIn known ms) : TypesIn known (put x ms) := by
  induction ms with
  | nil => simpa [TypesIn, Member.put] using hx
  | cons y ms ih =>
    obtain ⟨hy, hms⟩ := List.forall_mem_cons.mp h
    rw [Member.put]
    split
    · exact List.forall_mem_cons.mpr ⟨hx, hms⟩
    · exact List.forall_mem_cons.mpr ⟨hy, ih hms⟩

theorem merge (hinto : TypesIn known into) (h : TypesIn known ms) : TypesIn known (merge into ms) := by
  induction ms generalizing into with
  | nil => exact hinto
  | cons x ms ih =>
    obtain ⟨hx, hms⟩ := List.forall_mem_cons.mp h
    exact ih (hinto.put hx) hms

end TypesIn

end Member

namespace Classify

variable {m : Module} {known : TypeExpr → Prop} {members : TypeExpr → Resolving (Option (List Member))}
  {acc : List Member} {names : List String} {name : String} {t : TypeExpr}

/-- The members that are found, if any, have types among some. -/
def FindsIn (known : TypeExpr → Prop) (x : Resolving (Option (List Member))) : Prop :=
  Keeps x fun found => ∀ ms ∈ found, Member.TypesIn known ms

theorem FindsIn.none : FindsIn known (pure none) := Keeps.pure fun _ h => nomatch h

theorem mergeParts_findsIn {ts : List TypeExpr} (hmembers : ∀ t ∈ ts, FindsIn known (members t))
    (hacc : Member.TypesIn known acc) : FindsIn known (mergeParts members acc ts) := by
  induction ts generalizing acc with
  | nil => exact Keeps.pure (by simpa using hacc)
  | cons t ts ih =>
    obtain ⟨ht, hts⟩ := List.forall_mem_cons.mp hmembers
    refine Keeps.bind ht fun found hfound => ?_
    cases found with
    | none => exact FindsIn.none
    | some ms => exact ih hts (hacc.merge (hfound ms rfl))

theorem mergeBases_keeps {bases : List String} (hmembers : ∀ base ∈ bases, FindsIn known (members (.reference base [])))
    (hacc : Member.TypesIn known acc) : Keeps (mergeBases members acc bases) (Member.TypesIn known) := by
  induction bases generalizing acc with
  | nil => exact Keeps.pure hacc
  | cons base bases ih =>
    obtain ⟨hbase, hbases⟩ := List.forall_mem_cons.mp hmembers
    refine Keeps.bind hbase fun found hfound => ?_
    cases found with
    | none => exact ih hbases hacc
    | some ms => exact ih hbases (hacc.merge (hfound ms rfl))

theorem mergeInterfaces_keeps {decls : List InterfaceDecl}
    (hmembers : ∀ decl ∈ decls, ∀ base ∈ decl.bases, FindsIn known (members (.reference base [])))
    (hown : ∀ decl ∈ decls, Member.TypesIn known decl.members) (hacc : Member.TypesIn known acc) :
    Keeps (mergeInterfaces members acc decls) (Member.TypesIn known) := by
  induction decls generalizing acc with
  | nil => exact Keeps.pure hacc
  | cons decl decls ih =>
    obtain ⟨hdecl, hdecls⟩ := List.forall_mem_cons.mp hmembers
    obtain ⟨hmine, hothers⟩ := List.forall_mem_cons.mp hown
    exact Keeps.bind (mergeBases_keeps hdecl hacc) fun inherited hinherited =>
      ih hdecls hothers (hinherited.merge hmine.fields)

/-- A utility type makes all members optional or none, or leaves them as they are. -/
theorem utility?_cases {adapted : List Member → List Member} (h : utility? name = some adapted) :
    adapted = id ∨ ∃ optional, adapted = Member.withOptional optional := by
  unfold utility? at h
  split at h
  · exact Or.inr ⟨true, (Option.some.inj h).symm⟩
  · split at h
    · exact Or.inr ⟨false, (Option.some.inj h).symm⟩
    · split at h
      · exact Or.inl (Option.some.inj h).symm
      · cases h

theorem utility?_typesIn {adapted : List Member → List Member} {ms : List Member} (h : utility? name = some adapted)
    (hms : Member.TypesIn known ms) : Member.TypesIn known (adapted ms) := by
  obtain rfl | ⟨optional, rfl⟩ := utility?_cases h
  · exact hms
  · exact hms.withOptional optional

/-- The members of an interface have types that the module names, when those of its bases do. -/
theorem interfaces_keep (hdeclared : ∀ u ∈ m.declaredTypes, known u)
    (hmembers : ∀ t, (∀ u ∈ t.within, known u) → FindsIn known (members t)) :
    Keeps (mergeInterfaces members [] (m.interfaces name)) (Member.TypesIn known) := by
  refine mergeInterfaces_keeps (fun decl hdecl base hbase => hmembers _ fun u hu => ?_) ?_ (by simp [Member.TypesIn])
  · rw [List.mem_singleton.mp hu]
    exact hdeclared _ (Module.mem_declaredTypes_of_base hdecl hbase)
  · intro decl hdecl x hx t ht
    exact hdeclared t (Module.mem_declaredTypes_of_member hdecl hx ht t.self_mem_within)

/-- The members under a name have types that the module names, when those of its bases and its alias do. -/
theorem namedMembers_findsIn (hdeclared : ∀ u ∈ m.declaredTypes, known u)
    (hmembers : ∀ t, (∀ u ∈ t.within, known u) → FindsIn known (members t)) :
    FindsIn known (namedMembers m members name) := by
  rw [namedMembers]
  split
  · rename_i decl halias
    exact Keeps.guarded name (by simp) (hmembers _ fun u hu => hdeclared u (Module.mem_declaredTypes_of_alias? halias hu))
  · split
    · exact FindsIn.none
    · exact Keeps.guarded name (by simp) (Keeps.map (interfaces_keep hdeclared hmembers) (by simp))

/-- **The types of members** that are found are types that the module names, or stand in the type itself. -/
theorem membersOf_findsIn (hdeclared : ∀ u ∈ m.declaredTypes, known u) (n : Nat) (t : TypeExpr)
    (ht : ∀ u ∈ t.within, known u) : FindsIn known (membersOf m n t) := by
  induction n generalizing t with
  | zero => exact Keeps.failure
  | succ n ih =>
    cases t with
    | object ms =>
      refine Keeps.pure fun found hfound => ?_
      obtain rfl := Option.mem_some.mp hfound
      exact Member.TypesIn.fields fun x hx t hxt => ht t
        (List.mem_cons_of_mem _ (TypeExpr.mem_withinMembers.mpr ⟨x, hx, t, hxt, t.self_mem_within⟩))
    | intersection ts =>
      refine mergeParts_findsIn (fun part hpart => ih part fun u hu => ?_) (by simp [Member.TypesIn])
      exact ht u (List.mem_cons_of_mem _ (TypeExpr.mem_withinAll.mpr ⟨part, hpart, hu⟩))
    | union ts =>
      rw [membersOf]
      split
      · rename_i only honly
        have honly : only ∈ ts := TypeExpr.mem_of_mem_withoutNullish (honly ▸ List.mem_singleton_self only)
        exact ih only fun u hu => ht u (List.mem_cons_of_mem _ (TypeExpr.mem_withinAll.mpr ⟨only, honly, hu⟩))
      · exact FindsIn.none
    | reference name args =>
      simp only [membersOf]
      split
      · rename_i adapted arg hutility
        refine Keeps.map (ih arg fun u hu => ht u (List.mem_cons_of_mem _ ?_)) fun found hfound => ?_
        · exact TypeExpr.mem_withinAll.mpr ⟨arg, List.mem_singleton_self arg, hu⟩
        · intro ms hms
          obtain ⟨before, hbefore, rfl⟩ := Option.map_eq_some_iff.mp hms
          exact utility?_typesIn hutility (hfound before hbefore)
      · exact namedMembers_findsIn hdeclared ih
    | _ => exact FindsIn.none

theorem findsIn_true {x : Resolving (Option (List Member))} : FindsIn (fun _ => True) x ↔ Scoped x :=
  ⟨fun h names a names' hrun => ⟨(h names a names' hrun).1, trivial⟩,
    fun h names a names' hrun => ⟨(h names a names' hrun).1, fun _ _ _ _ _ _ => trivial⟩⟩

/-- Looking up members leaves the names as it found them. -/
theorem membersOf_scoped (m : Module) (n : Nat) (t : TypeExpr) : Scoped (membersOf m n t) :=
  findsIn_true.mp (membersOf_findsIn (fun _ _ => trivial) n t fun _ _ => trivial)

theorem objectMembers_scoped (m : Module) (t : TypeExpr) : Scoped (objectMembers m t) := membersOf_scoped m _ t

theorem mergeBases_scoped (hscoped : ∀ t, Scoped (members t)) (acc : List Member) (bases : List String) :
    Scoped (mergeBases members acc bases) := fun names ms names' hrun =>
  ⟨(mergeBases_keeps (fun _ _ => findsIn_true.mpr (hscoped _)) (fun _ _ _ _ => trivial) names ms names' hrun).1, trivial⟩

theorem mergeInterfaces_scoped (hscoped : ∀ t, Scoped (members t)) (acc : List Member) (decls : List InterfaceDecl) :
    Scoped (mergeInterfaces members acc decls) := by
  induction decls generalizing acc with
  | nil => exact Scoped.pure _
  | cons decl decls ih => exact (mergeBases_scoped hscoped acc decl.bases).bind fun _ => ih _

/-! ## Members are always told

A depth suffices when it is no less than the size of the type, and for every name that can still be followed the
size of all that the module names. -/

section Ends

variable (hscoped : ∀ t, Scoped (members t))
include hscoped

theorem mergeParts_ends {ts : List TypeExpr} (hends : ∀ t ∈ ts, Ends (members t) names) :
    Ends (mergeParts members acc ts) names := by
  induction ts generalizing acc with
  | nil => exact ends_pure _
  | cons t ts ih =>
    obtain ⟨⟨found, hfound⟩, hts⟩ := List.forall_mem_cons.mp hends
    refine (ends_bind (hscoped t)).mpr ⟨found, hfound, ?_⟩
    cases found with
    | none => exact ends_pure _
    | some ms => exact ih hts

theorem mergeBases_ends {bases : List String} (hends : ∀ base ∈ bases, Ends (members (.reference base [])) names) :
    Ends (mergeBases members acc bases) names := by
  induction bases generalizing acc with
  | nil => exact ends_pure _
  | cons base bases ih =>
    obtain ⟨⟨found, hfound⟩, hbases⟩ := List.forall_mem_cons.mp hends
    refine (ends_bind (hscoped _)).mpr ⟨found, hfound, ?_⟩
    cases found <;> exact ih hbases

theorem mergeInterfaces_ends {decls : List InterfaceDecl}
    (hends : ∀ decl ∈ decls, ∀ base ∈ decl.bases, Ends (members (.reference base [])) names) :
    Ends (mergeInterfaces members acc decls) names := by
  induction decls generalizing acc with
  | nil => exact ends_pure _
  | cons decl decls ih =>
    obtain ⟨hdecl, hdecls⟩ := List.forall_mem_cons.mp hends
    obtain ⟨inherited, hinherited⟩ := mergeBases_ends hscoped hdecl
    exact (ends_bind (mergeBases_scoped hscoped acc decl.bases)).mpr ⟨inherited, hinherited, ih hdecls⟩

/-- The members under a name are told when its definition is told inside the name. -/
theorem namedMembers_ends
    (halias : ∀ decl, m.alias? name = some decl → name ∉ names → Ends (members decl.type) (name :: names))
    (hbases : ∀ decl ∈ m.interfaces name, name ∉ names →
      ∀ base ∈ decl.bases, Ends (members (.reference base [])) (name :: names)) :
    Ends (namedMembers m members name) names := by
  rw [namedMembers]
  split
  · rename_i decl hdecl
    refine (ends_guarded name none (hscoped decl.type)).mpr (Classical.or_iff_not_imp_left.mpr fun hnew => ?_)
    exact halias decl hdecl hnew
  · split
    · exact ends_pure _
    · refine (ends_guarded name none (Scoped.map some (mergeInterfaces_scoped hscoped [] _))).mpr ?_
      refine Classical.or_iff_not_imp_left.mpr fun hnew => (ends_map some).mpr (mergeInterfaces_ends hscoped ?_)
      exact fun decl hdecl => hbases decl hdecl hnew

end Ends

/-- The depth that looking up the members of a type takes, inside the definitions of some names. -/
def membersDepth (m : Module) (names : List String) (t : TypeExpr) : Nat :=
  m.free names * (m.declaredTypes.length + 2) + t.within.length

/-- A part of a type takes less depth. -/
theorem membersDepth_lt_of_part {u : TypeExpr} (h : u.within.length < t.within.length) :
    membersDepth m names u < membersDepth m names t := Nat.add_lt_add_left h _

/-- What a name stands for takes less depth than the name. -/
theorem membersDepth_cons_lt {u : TypeExpr} (hname : name ∈ m.typeNames) (hnew : name ∉ names)
    (hu : u ∈ m.declaredTypes) :
    membersDepth m (name :: names) u < membersDepth m names t := by
  have hfree := Nat.mul_le_mul_right (m.declaredTypes.length + 2) (Module.free_cons_lt hname hnew)
  rw [Nat.succ_mul] at hfree
  have hsize := (Module.within_sublist_declaredTypes hu).length_le
  have hpos := t.length_within_pos
  unfold membersDepth
  omega

/-- Looking up members ends when the depth suffices. -/
theorem membersOf_ends (n : Nat) (t : TypeExpr) (names : List String) (hn : membersDepth m names t ≤ n) :
    Ends (membersOf m n t) names := by
  induction n generalizing t names with
  | zero => exact absurd hn (Nat.not_le_of_lt (Nat.add_pos_right _ t.length_within_pos))
  | succ n ih =>
    have hpart : ∀ u, u.within.length < t.within.length → Ends (membersOf m n u) names := fun u hu =>
      ih u names (Nat.lt_succ_iff.mp ((membersDepth_lt_of_part hu).trans_le hn))
    have hdefinition : ∀ name u, name ∈ m.typeNames → name ∉ names → u ∈ m.declaredTypes →
        Ends (membersOf m n u) (name :: names) := fun name u hname hnew hu =>
      ih u (name :: names) (Nat.lt_succ_iff.mp ((membersDepth_cons_lt hname hnew hu).trans_le hn))
    cases t with
    | intersection ts =>
      exact mergeParts_ends (membersOf_scoped m n) fun part hp =>
        hpart part (Nat.lt_succ_of_le (TypeExpr.length_within_le hp))
    | union ts =>
      rw [membersOf]
      split
      · rename_i only honly
        have honly : only ∈ ts := TypeExpr.mem_of_mem_withoutNullish (honly ▸ List.mem_singleton_self only)
        exact hpart only (Nat.lt_succ_of_le (TypeExpr.length_within_le honly))
      · exact ends_pure _
    | reference name args =>
      simp only [membersOf]
      split
      · rename_i adapted arg hutility
        exact (ends_map _).mpr
          (hpart arg (Nat.lt_succ_of_le (TypeExpr.length_within_le (List.mem_singleton_self arg))))
      · refine namedMembers_ends (membersOf_scoped m n) (fun decl hdecl hnew => ?_) fun decl hdecl hnew base hbase => ?_
        · exact hdefinition name _ (Module.mem_typeNames_of_alias? hdecl) hnew
            (Module.mem_declaredTypes_of_alias? hdecl (TypeExpr.self_mem_within _))
        · exact hdefinition name _ (Module.mem_typeNames_of_interfaces hdecl) hnew
            (Module.mem_declaredTypes_of_base hdecl hbase)
    | _ => exact ends_pure _

/-- The depth to which members are looked up suffices inside any names. -/
theorem membersDepth_le_depthFor (m : Module) (names : List String) (t : TypeExpr) : membersDepth m names t ≤ m.depthFor t := by
  have hfree := Nat.mul_le_mul (m.free_le names) (Nat.add_le_add_right (m.declaredTypes.length.le_add_right t.within.length) 2)
  rw [membersDepth, Module.depthFor, Nat.succ_mul]
  omega

/-- **The members of a type are always told**, and the names are left as they were. -/
theorem objectMembers_ends (m : Module) (t : TypeExpr) (names : List String) : Ends (objectMembers m t) names :=
  membersOf_ends _ t names (membersDepth_le_depthFor m names t)

end Classify

end AppBundler
