import AppBundler.Proofs.Schema.Shapes
import AppBundler.Source.Tree.Items
/-!
# Members of interfaces

The declarations of an interface are taken in their order, and each lists what its bases list and then its own members.
Among all that is listed the last signature of a key stands. So the own members of a declaration override what its bases
list, but not what the bases of a later declaration do.
-/

namespace AppBundler

namespace Member

variable {key : String} {x y : Member} {ms xs ys into : List Member}

/-- The last of some members that have a key. -/
def last? (key : String) (ms : List Member) : Option Member := (ms.filter fun x => x.key = key).getLast?

theorem last?_append : last? key (xs ++ ys) = (last? key ys).or (last? key xs) := by
  rw [last?, List.filter_append, List.getLast?_append]
  rfl

theorem last?_cons : last? key (x :: ms) = (last? key ms).or (if x.key = key then some x else none) := by
  rw [← List.singleton_append, last?_append]
  by_cases hkey : x.key = key <;> simp [last?, hkey]

theorem last?_eq_none_iff : last? key ms = none ↔ key ∉ ms.map (·.key) := by
  simp [last?]

theorem of_last? (h : last? key ms = some x) : x ∈ ms ∧ x.key = key := by
  simpa using List.mem_filter.mp (List.mem_of_getLast? h)

theorem exists_last? (h : key ∈ ms.map (·.key)) : ∃ x, last? key ms = some x :=
  Option.ne_none_iff_exists'.mp fun hnone => last?_eq_none_iff.mp hnone h

/-! ## Merged members -/

theorem find?_put : (put x ms).find? (·.key = key) = if x.key = key then some x else ms.find? (·.key = key) := by
  induction ms with
  | nil => by_cases hx : x.key = key <;> simp [put, hx]
  | cons y ms ih =>
    rw [put]
    by_cases hyx : y.key = x.key
    · by_cases hx : x.key = key <;> simp [hyx, hx]
    · by_cases hx : x.key = key
      · have hy : y.key ≠ key := hx ▸ hyx
        simp [hx, hy, ih]
      · simp [hyx, hx, ih, List.find?_cons]

theorem key_mem_put : key ∈ (put x ms).map (·.key) ↔ key = x.key ∨ key ∈ ms.map (·.key) := by
  induction ms with
  | nil => simp [put]
  | cons y ms ih =>
    rw [put]
    by_cases hyx : y.key = x.key
    · simp [hyx]
    · rw [if_neg hyx, List.map_cons, List.mem_cons, ih, List.map_cons, List.mem_cons]
      exact or_left_comm

theorem nodup_put (h : (ms.map (·.key)).Nodup) : ((put x ms).map (·.key)).Nodup := by
  induction ms with
  | nil => simp [put]
  | cons y ms ih =>
    obtain ⟨hy, hms⟩ : y.key ∉ ms.map (·.key) ∧ (ms.map (·.key)).Nodup := List.nodup_cons.mp h
    rw [put]
    by_cases hyx : y.key = x.key
    · have hx : x.key ∉ ms.map (·.key) := hyx ▸ hy
      rw [if_pos hyx]
      exact List.nodup_cons.mpr ⟨hx, hms⟩
    · rw [if_neg hyx]
      exact List.nodup_cons.mpr ⟨fun hmem => (key_mem_put.mp hmem).elim hyx hy, ih hms⟩

/-- Merged members have distinct keys. -/
theorem nodup_merge (h : (into.map (·.key)).Nodup) : ((merge into ms).map (·.key)).Nodup := by
  induction ms generalizing into with
  | nil => exact h
  | cons x ms ih => exact ih (nodup_put h)

/-- Among merged members, the last signature of a key stands. -/
theorem find?_merge : (merge into ms).find? (·.key = key) = (last? key ms).or (into.find? (·.key = key)) := by
  induction ms generalizing into with
  | nil => rfl
  | cons x ms ih =>
    rw [merge, List.foldl_cons, ← merge, ih, find?_put, last?_cons, Option.or_assoc]
    by_cases hx : x.key = key <;> simp [hx]

theorem merge_append : merge into (xs ++ ys) = merge (merge into xs) ys := List.foldl_append

/-- Members with distinct keys are found by them. -/
theorem mem_iff_find? (h : (ms.map (·.key)).Nodup) : x ∈ ms ↔ ms.find? (·.key = x.key) = some x := by
  induction ms with
  | nil => simp
  | cons y ms ih =>
    obtain ⟨hy, hms⟩ : y.key ∉ ms.map (·.key) ∧ (ms.map (·.key)).Nodup := List.nodup_cons.mp h
    by_cases hyx : y.key = x.key
    · have hx : x ∉ ms := fun hmem => hy (hyx ▸ List.mem_map_of_mem hmem)
      simp [hyx, hx, eq_comm]
    · have hne : x ≠ y := fun heq => hyx (heq ▸ rfl)
      rw [List.mem_cons, or_iff_right hne, ih hms, List.find?_cons_of_neg (by simpa using hyx)]

/-- **The members that are merged** are those that come last under their keys. -/
theorem mem_merge_iff : x ∈ merge [] ms ↔ last? x.key ms = some x := by
  have hnodup : ((merge [] ms).map (·.key)).Nodup := nodup_merge (by simp)
  rw [mem_iff_find? hnodup, find?_merge, List.find?_nil, Option.or_none]

theorem key_mem_merge : key ∈ (merge [] ms).map (·.key) ↔ key ∈ ms.map (·.key) := by
  constructor
  · intro h
    obtain ⟨x, hx, rfl⟩ := List.mem_map.mp h
    exact List.mem_map_of_mem (of_last? (mem_merge_iff.mp hx)).1
  · intro h
    obtain ⟨x, hx⟩ := exists_last? h
    obtain ⟨-, rfl⟩ := of_last? hx
    exact List.mem_map_of_mem (mem_merge_iff.mpr hx)

end Member

/-! ## What an interface lists -/

namespace Module

/-- The members of a type, told inside the definitions of some names. -/
def membersIn (m : Module) (names : List String) (t : TypeExpr) : Option (List Member) :=
  ((Classify.objectMembers m t).run' names).join

/-- The members that an interface has from a base: those that the base has inside the interface. -/
def inherited (m : Module) (name base : String) : List Member := (m.membersIn [name] (.reference base [])).getD []

/-- What a declaration of an interface lists: the members from each of its bases, and then its own. -/
def listed (m : Module) (name : String) (decl : InterfaceDecl) : List Member :=
  decl.bases.flatMap (m.inherited name) ++ Member.fields decl.members

end Module

namespace Classify

variable {m : Module} {name : String} {names : List String} {members : TypeExpr → Resolving (Option (List Member))}
  {found : String → Option (List Member)} {acc : List Member}

theorem mergeBases_run {bases : List String}
    (h : ∀ base ∈ bases, (members (.reference base [])).run names = some (found base, names)) :
    (mergeBases members acc bases).run names =
      some (Member.merge acc (bases.flatMap fun base => (found base).getD []), names) := by
  induction bases generalizing acc with
  | nil => rfl
  | cons base bases ih =>
    obtain ⟨hbase, hbases⟩ := List.forall_mem_cons.mp h
    rw [mergeBases, StateT.run_bind, hbase, List.flatMap_cons, Member.merge_append]
    cases found base with
    | none => exact ih hbases
    | some ms => exact ih hbases

theorem mergeInterfaces_run {decls : List InterfaceDecl}
    (h : ∀ decl ∈ decls, ∀ base ∈ decl.bases, (members (.reference base [])).run names = some (found base, names)) :
    (mergeInterfaces members acc decls).run names = some (Member.merge acc (decls.flatMap fun decl =>
      decl.bases.flatMap (fun base => (found base).getD []) ++ Member.fields decl.members), names) := by
  induction decls generalizing acc with
  | nil => rfl
  | cons decl decls ih =>
    obtain ⟨hdecl, hdecls⟩ := List.forall_mem_cons.mp h
    rw [mergeInterfaces, StateT.run_bind, mergeBases_run hdecl, List.flatMap_cons, Member.merge_append, Member.merge_append]
    exact ih hdecls

/-- The members of a type are the same at each depth that suffices to tell them. -/
theorem membersOf_run {n : Nat} {t : TypeExpr} (h : Ends (membersOf m n t) names) :
    (membersOf m n t).run names = some (m.membersIn names t, names) := by
  obtain ⟨found, hfound⟩ := h
  obtain ⟨found', hfound'⟩ := objectMembers_ends m t names
  obtain ⟨-, rfl, -⟩ := membersOf_related m _ _ t _ _ _ _ _ hfound hfound'
  rw [Module.membersIn, StateT.run'_eq, hfound', hfound]
  rfl

/-- **The members of an interface are what its declarations list**, merged in their order. -/
theorem membersOf_interface {args : List TypeExpr} (hinterface : m.interfaces name ≠ []) (halias : m.alias? name = none)
    (hutility : utility? name = none) :
    m.membersOf (.reference name args) =
      some (some (Member.merge [] ((m.interfaces name).flatMap (m.listed name)))) := by
  obtain ⟨decl, hdecl⟩ := List.exists_mem_of_ne_nil _ hinterface
  have hname := Module.mem_typeNames_of_interfaces hdecl
  obtain ⟨k, hk⟩ : ∃ k, m.depthFor (.reference name args) = k + 1 := Nat.exists_eq_succ_of_ne_zero
    (Nat.ne_of_gt (Nat.mul_pos (Nat.succ_pos _) (Nat.succ_pos _)))
  have hbases : ∀ decl ∈ m.interfaces name, ∀ base ∈ decl.bases,
      (membersOf m k (.reference base [])).run [name] = some (m.membersIn [name] (.reference base []), [name]) := by
    intro decl hdecl base hbase
    refine membersOf_run (membersOf_ends k _ _ (Nat.lt_succ_iff.mp ?_))
    rw [← Nat.succ_eq_add_one] at hk
    rw [← hk]
    exact (membersDepth_cons_lt hname List.not_mem_nil (Module.mem_declaredTypes_of_base hdecl hbase)).trans_le
      (membersDepth_le_depthFor m [] _)
  have hrun : (mergeInterfaces (membersOf m k) [] (m.interfaces name)).run [name] =
      some (Member.merge [] ((m.interfaces name).flatMap (m.listed name)), [name]) := mergeInterfaces_run hbases
  rw [Module.membersOf, objectMembers, hk, membersOf_reference (by simp [hutility]), namedMembers, halias]
  cases hdecls : m.interfaces name with
  | nil => exact absurd hdecls hinterface
  | cons first rest =>
    rw [hdecls] at hrun
    simp [StateT.run'_eq, run_guarded, hrun]

/-! ## Own members -/

/-- A member is the last one of its key among the own members of an interface. Some declarations stand behind the one that
has it, and none of them has a member of that key itself. -/
def IsLastOwn (m : Module) (name : String) (x : Member) (behind : List InterfaceDecl) : Prop :=
  ∃ front decl, m.interfaces name = front ++ decl :: behind ∧ Member.last? x.key (Member.fields decl.members) = some x ∧
    ∀ d ∈ behind, x.key ∉ (Member.fields d.members).map (·.key)

/-- What the bases of some declarations list. -/
def inheritedFrom (m : Module) (name : String) (decls : List InterfaceDecl) : List Member :=
  decls.flatMap fun decl => decl.bases.flatMap (m.inherited name)

/-- Declarations without own members of a key list it last where their bases do. -/
theorem last?_inheritedFrom {key : String} {decls : List InterfaceDecl}
    (h : ∀ d ∈ decls, key ∉ (Member.fields d.members).map (·.key)) :
    Member.last? key (decls.flatMap (m.listed name)) = Member.last? key (inheritedFrom m name decls) := by
  induction decls with
  | nil => rfl
  | cons decl decls ih =>
    obtain ⟨hdecl, hdecls⟩ := List.forall_mem_cons.mp h
    rw [inheritedFrom, List.flatMap_cons, List.flatMap_cons, Member.last?_append, Member.last?_append, ih hdecls,
      Module.listed, Member.last?_append, Member.last?_eq_none_iff.mpr hdecl, Option.none_or]
    rfl

/-- Under the key of an own member, the last signature is its own, or one from a base of a declaration behind it. -/
theorem IsLastOwn.last?_listed {x : Member} {behind : List InterfaceDecl} (h : IsLastOwn m name x behind) :
    Member.last? x.key ((m.interfaces name).flatMap (m.listed name)) =
      (Member.last? x.key (inheritedFrom m name behind)).or (some x) := by
  obtain ⟨front, decl, hdecls, hx, hbehind⟩ := h
  rw [hdecls, List.flatMap_append, List.flatMap_cons, Member.last?_append, Member.last?_append,
    last?_inheritedFrom hbehind, Module.listed, Member.last?_append, hx, Option.some_or, Option.or_assoc, Option.some_or]

/-- **The members of an interface.** An interface that is no alias and has no name of a utility type always has members,
with distinct keys. Each key that one of its declarations has itself is among them, and its signature is that of the last
declaration that has it, unless a base of a declaration behind that one lists the key again: then it is the signature from
the last such base. All other members are from bases. -/
theorem members_of_interface {args : List TypeExpr} (hinterface : m.interfaces name ≠ []) (halias : m.alias? name = none)
    (hutility : utility? name = none) :
    ∃ ms, m.membersOf (.reference name args) = some (some ms) ∧ (ms.map (·.key)).Nodup ∧
      (∀ decl ∈ m.interfaces name, ∀ x ∈ Member.fields decl.members, x.key ∈ ms.map (·.key)) ∧
      (∀ x behind, IsLastOwn m name x behind →
        (x ∈ ms ↔ ∀ y, Member.last? x.key (inheritedFrom m name behind) = some y → y = x) ∧
          ∀ y, Member.last? x.key (inheritedFrom m name behind) = some y → y ∈ ms) ∧
      ∀ y ∈ ms, (∀ decl ∈ m.interfaces name, y.key ∉ (Member.fields decl.members).map (·.key)) →
        ∃ decl ∈ m.interfaces name, ∃ base ∈ decl.bases, y ∈ m.inherited name base := by
  refine ⟨_, membersOf_interface hinterface halias hutility, Member.nodup_merge (by simp), ?_, ?_, ?_⟩
  · intro decl hdecl x hx
    refine Member.key_mem_merge.mpr (List.mem_map_of_mem (List.mem_flatMap.mpr ⟨decl, hdecl, ?_⟩))
    exact List.mem_append_right _ hx
  · intro x behind hown
    have hlast := hown.last?_listed
    cases hbases : Member.last? x.key (inheritedFrom m name behind) with
    | none =>
      rw [hbases, Option.none_or] at hlast
      exact ⟨⟨fun _ => nofun, fun _ => Member.mem_merge_iff.mpr hlast⟩, nofun⟩
    | some y =>
      rw [hbases, Option.some_or] at hlast
      have hkey := (Member.of_last? hlast).2
      have hy : y ∈ Member.merge [] ((m.interfaces name).flatMap (m.listed name)) :=
        Member.mem_merge_iff.mpr (hkey ▸ hlast)
      refine ⟨?_, ?_⟩
      · rw [Member.mem_merge_iff, hlast]
        simp
      · rintro _ ⟨⟩
        exact hy
  · intro y hy hnot
    obtain ⟨decl, hdecl, hlisted⟩ := List.mem_flatMap.mp (Member.of_last? (Member.mem_merge_iff.mp hy)).1
    refine ⟨decl, hdecl, ?_⟩
    rcases List.mem_append.mp hlisted with hbase | hown
    · exact List.mem_flatMap.mp hbase
    · exact absurd (List.mem_map_of_mem hown) (hnot decl hdecl)

/-- The member `id` of the interface `I`. -/
def ownId : Member := ⟨"id", false, some (.keyword "string"), none, false⟩

/-- The member `id` of the interface `B`. -/
def baseId : Member := ⟨"id", false, some (.keyword "number"), none, false⟩

/-- A module whose interface `I` has a member `id`, and gets a base later that lists `id` as well. -/
def lateBase : Module :=
  ⟨[.interface ⟨"B", [], [baseId]⟩, .interface ⟨"I", [], [ownId]⟩, .interface ⟨"I", ["B"], []⟩,
    .function ⟨some "handler", ⟨[⟨.ident "i", false, some (.reference "I" []), false⟩], false⟩, .named⟩]⟩

theorem isLastOwn_ownId : IsLastOwn lateBase "I" ownId [⟨"I", ["B"], []⟩] :=
  ⟨[], ⟨"I", [], [ownId]⟩, rfl, rfl, by simp [Member.fields]⟩

/-- The interface `I` is told with its key, and with the signature from the base. -/
theorem members_of_interface_lateBase :
    lateBase.interfaces "I" ≠ [] ∧ lateBase.alias? "I" = none ∧ utility? "I" = none ∧
    ∃ ms, lateBase.membersOf (.reference "I" []) = some (some ms) ∧ (ms.map (·.key)).Nodup ∧ "id" ∈ ms.map (·.key) ∧
      baseId ∈ ms := by
  have hinterface : lateBase.interfaces "I" ≠ [] := List.cons_ne_nil _ _
  have halias : lateBase.alias? "I" = none := rfl
  have hutility : utility? "I" = none := rfl
  have hbase : Member.last? "id" (inheritedFrom lateBase "I" [⟨"I", ["B"], []⟩]) = some baseId := rfl
  obtain ⟨ms, hms, hnodup, hkeys, hown, -⟩ := @members_of_interface lateBase "I" [] hinterface halias hutility
  refine ⟨hinterface, halias, hutility, ms, hms, hnodup, ?_, ?_⟩
  · exact hkeys ⟨"I", [], [ownId]⟩ List.mem_cons_self ownId List.mem_cons_self
  · exact (hown ownId _ isLastOwn_ownId).2 baseId hbase

/-- **An own member is lost** to a base of a declaration behind the one that has it. -/
theorem own_lost_to_later_base :
    Module.ofSource ("interface B \x7b id: number \x7d interface I \x7b id: string \x7d\n" ++
        "interface I extends B \x7b\x7d export function handler(i: I) \x7b\x7d") = .ok lateBase ∧
    IsLastOwn lateBase "I" ownId [⟨"I", ["B"], []⟩] ∧
    ∃ ms, lateBase.membersOf (.reference "I" []) = some (some ms) ∧ ownId ∉ ms :=
  ⟨rfl, isLastOwn_ownId, [baseId], rfl, by simp [ownId, baseId]⟩

end Classify

end AppBundler
