import Mathlib.Data.Set.Card
import Mathlib.Logic.Relation
import AppBundler.Proofs.Schema.Nodes
import AppBundler.Source.Tree.Items
/-!
# When classifications end

Types that are visited on the way are among those of the module and of the type that is classified, and the names
that are followed only become more. So a classification that never visits anything twice has only so far to go,
and one that does goes on without end. Nothing is ever visited twice where there is no intersection: behind all
other types, the names that are followed stand in the way.
-/

namespace AppBundler.Classify

open Relation

variable {m : Module} {v w : Visit}

/-- One visit is followed by another. -/
def Leads (m : Module) (v w : Visit) : Prop := w ∈ v.next m

/-- A visit is followed, at once or later, by one that is followed by itself. -/
def LeadsBack (m : Module) (v : Visit) : Prop := ∃ w, ReflTransGen (Leads m) v w ∧ TransGen (Leads m) w w

theorem LeadsBack.of_leads (h : Leads m v w) (hw : LeadsBack m w) : LeadsBack m v := by
  obtain ⟨x, hwx, hx⟩ := hw
  exact ⟨x, hwx.head h, hx⟩

/-- What leads back goes on to something that does. -/
theorem LeadsBack.exists_leads (h : LeadsBack m v) : ∃ w, Leads m v w ∧ LeadsBack m w := by
  obtain ⟨x, hvx, hx⟩ := h
  rcases hvx.cases_head with rfl | ⟨w, hvw, hwx⟩
  · obtain ⟨w, hvw, hwx⟩ := TransGen.head'_iff.mp hx
    exact ⟨w, hvw, v, hwx, hx⟩
  · exact ⟨w, hvw, x, hwx, hx⟩

/-- **What leads back to itself never ends.** -/
theorem LeadsBack.not_endsAt (h : LeadsBack m v) (n : Nat) : ¬ v.EndsAt m n := by
  induction n generalizing v with
  | zero => exact not_ends_failure
  | succ n ih =>
    obtain ⟨w, hvw, hw⟩ := h.exists_leads
    exact fun hends => ih hw ((v.endsAt_succ m n).mp hends w hvw)

/-! ## What may be visited -/

/-- The types that may be visited. -/
def Visit.types (m : Module) (v : Visit) : List TypeExpr := m.declaredTypes ++ v.type.within

theorem mem_within_of_mem_elementTypes {element t : TypeExpr} (h : t ∈ elementTypes element) : t ∈ element.within := by
  cases element with
  | union ts =>
    rw [elementTypes] at h
    split at h
    · rw [List.mem_singleton.mp h]
      exact TypeExpr.self_mem_within _
    · exact List.mem_cons_of_mem _ (TypeExpr.mem_withinAll_of_mem (TypeExpr.mem_of_mem_withoutNullish h))
  | _ =>
    rw [List.mem_singleton.mp h]
    exact TypeExpr.self_mem_within _

theorem exists_of_mem_propertyTypes {ms : List Member} {t : TypeExpr} (h : t ∈ propertyTypes ms) :
    ∃ x ∈ ms, t ∈ x.type := by
  obtain ⟨x, hx, ht⟩ := List.mem_filterMap.mp (List.mem_of_mem_filter h)
  exact ⟨x, List.mem_of_mem_filter hx, ht⟩

theorem eq_of_mem_aliasTypes {t u : TypeExpr} (h : u ∈ aliasTypes t) : u = t := by
  rw [aliasTypes] at h
  split at h
  · cases h
  · exact List.mem_singleton.mp h

theorem mem_args_of_builtIn? {name : String} {args : List TypeExpr} {arg : TypeExpr}
    (h : builtIn? name args = some (.array arg) ∨ builtIn? name args = some (.same arg)) : arg ∈ args := by
  unfold builtIn? at h
  split at h
  · simp at h
  · split at h
    · simp at h
    · split at h
      · split at h
        · simp at h
          exact List.mem_singleton.mpr h.symm
        · split at h
          · simp at h
            exact List.mem_singleton.mpr h.symm
          · simp at h
      · simp at h

/-- What is visited for a name is in its definition, and the name is followed from then on. -/
theorem mem_namedVisits {name : String} {names : List String} (h : w ∈ namedVisits m name names) :
    name ∈ m.typeNames ∧ name ∉ names ∧ w.names = name :: names ∧ w.type ∈ m.declaredTypes := by
  rw [namedVisits] at h
  split at h
  · cases h
  · rename_i hnew
    split at h
    · rename_i decl hdecl
      obtain ⟨t, ht, rfl⟩ := List.mem_map.mp h
      obtain rfl := eq_of_mem_aliasTypes ht
      exact ⟨Module.mem_typeNames_of_alias? hdecl, hnew, rfl,
        Module.mem_declaredTypes_of_alias? hdecl (TypeExpr.self_mem_within _)⟩
    · split at h
      · cases h
      · rename_i hsome
        obtain ⟨decl, hdecl⟩ := List.exists_mem_of_ne_nil _ hsome
        obtain ⟨t, ht, rfl⟩ := List.mem_map.mp h
        refine ⟨Module.mem_typeNames_of_interfaces hdecl, hnew, rfl, ?_⟩
        cases hrun : (mergeInterfaces (objectMembers m) [] (m.interfaces name)).run' (name :: names) with
        | none =>
          rw [hrun] at ht
          cases ht
        | some ms =>
          rw [hrun] at ht
          obtain ⟨x, hx, htype⟩ := exists_of_mem_propertyTypes ht
          have hkeeps : Keeps (mergeInterfaces (objectMembers m) [] (m.interfaces name))
              (Member.TypesIn (· ∈ m.declaredTypes)) :=
            interfaces_keep (fun _ hu => hu) fun t ht => membersOf_findsIn (fun _ hu => hu) _ t ht
          exact hkeeps.of_run' hrun x hx t htype

/-- **What a visit leads to**: a part of its type; behind an intersection, what may be visited at all; or, with one
more name that is followed, something in the definition of that name. -/
theorem Leads.cases (h : Leads m v w) :
    (w.names = v.names ∧ w.type ∈ v.type.within ∧ w.type.within.length < v.type.within.length) ∨
      (w.names = v.names ∧ w.type ∈ v.types m ∧ ∃ ts, v.type = .intersection ts) ∨
      (w.type ∈ m.declaredTypes ∧ ∃ name ∈ m.typeNames, name ∉ v.names ∧ w.names = name :: v.names) := by
  obtain ⟨names, t⟩ := v
  have hpart : ∀ u ∈ t.within.tail, u ∈ t.within ∧ u.within.length < t.within.length := fun u hu =>
    ⟨List.mem_of_mem_tail hu, TypeExpr.length_within_lt hu⟩
  cases t with
  | array element =>
    obtain ⟨u, hu, rfl⟩ := List.mem_map.mp h
    exact Or.inl ⟨rfl, hpart u (mem_within_of_mem_elementTypes hu)⟩
  | union ts =>
    obtain ⟨u, hu, rfl⟩ := List.mem_map.mp h
    exact Or.inl ⟨rfl, hpart u (TypeExpr.mem_withinAll_of_mem (TypeExpr.mem_of_mem_withoutNullish hu))⟩
  | object ms =>
    obtain ⟨u, hu, rfl⟩ := List.mem_map.mp h
    obtain ⟨x, hx, htype⟩ := exists_of_mem_propertyTypes hu
    exact Or.inl ⟨rfl, hpart u (TypeExpr.mem_withinMembers.mpr ⟨x, hx, u, htype, u.self_mem_within⟩)⟩
  | intersection ts =>
    obtain ⟨u, hu, rfl⟩ := List.mem_map.mp h
    refine Or.inr (Or.inl ⟨rfl, ?_, ts, rfl⟩)
    cases hrun : (objectMembers m (.intersection ts)).run' names with
    | none =>
      rw [hrun] at hu
      cases hu
    | some found =>
      rw [hrun] at hu
      cases found with
      | none => cases hu
      | some ms =>
        obtain ⟨x, hx, htype⟩ := exists_of_mem_propertyTypes hu
        have hfinds : FindsIn (· ∈ Visit.types m ⟨names, .intersection ts⟩) (objectMembers m (.intersection ts)) :=
          membersOf_findsIn (fun u hu => List.mem_append_left _ hu) _ _ fun u hu => List.mem_append_right _ hu
        exact hfinds.of_run' hrun ms rfl x hx u htype
  | reference name args =>
    simp only [Leads, Visit.next] at h
    split at h
    · rename_i element hbuiltIn
      obtain ⟨u, hu, rfl⟩ := List.mem_map.mp h
      refine Or.inl ⟨rfl, hpart u (TypeExpr.mem_withinAll.mpr ⟨element, ?_, mem_within_of_mem_elementTypes hu⟩)⟩
      exact mem_args_of_builtIn? (Or.inl hbuiltIn)
    · cases h
    · rename_i arg hbuiltIn
      obtain rfl := List.mem_singleton.mp h
      exact Or.inl ⟨rfl, hpart arg (TypeExpr.mem_withinAll_of_mem (mem_args_of_builtIn? (Or.inr hbuiltIn)))⟩
    · obtain ⟨hname, hnew, hnames, htype⟩ := mem_namedVisits h
      exact Or.inr (Or.inr ⟨htype, name, hname, hnew, hnames⟩)
  | _ => cases h

theorem Leads.type_mem (h : Leads m v w) : w.type ∈ v.types m := by
  rcases h.cases with ⟨-, htype, -⟩ | ⟨-, htype, -⟩ | ⟨htype, -⟩
  · exact List.mem_append_right _ htype
  · exact htype
  · exact List.mem_append_left _ htype

/-- No more types may be visited from a visit than from the one before it. -/
theorem Leads.types_subset (h : Leads m v w) : w.types m ⊆ v.types m := by
  refine List.append_subset.mpr ⟨List.subset_append_left _ _, ?_⟩
  rcases List.mem_append.mp h.type_mem with hdeclared | hwithin
  · exact List.subset_append_of_subset_left _ (Module.within_sublist_declaredTypes hdeclared).subset
  · exact List.subset_append_of_subset_right _ (TypeExpr.within_sublist _ hwithin).subset

/-! ## Enough depth -/

section Depth

/-- The types among some that are still visited inside the same names. -/
def ahead (m : Module) (types : List TypeExpr) (v : Visit) : Set TypeExpr :=
  {u | u ∈ types ∧ TransGen (Leads m) v ⟨v.names, u⟩}

theorem ahead_finite (m : Module) (types : List TypeExpr) (v : Visit) : (ahead m types v).Finite :=
  types.finite_toSet.subset fun _ hu => hu.1

theorem ncard_ahead_le (m : Module) (types : List TypeExpr) (v : Visit) : (ahead m types v).ncard ≤ types.length := by
  classical
  have hlist : {u | u ∈ types} = (types.toFinset : Set TypeExpr) := by
    ext u
    simp
  refine (Set.ncard_le_ncard (fun _ hu => hu.1) types.finite_toSet).trans ?_
  rw [hlist, Set.ncard_coe_finset]
  exact types.toFinset_card_le

/-- The depth that a visit takes when none leads back. -/
noncomputable def visitDepth (m : Module) (types : List TypeExpr) (v : Visit) : Nat :=
  m.free v.names * (types.length + 1) + (ahead m types v).ncard

/-- Each visit takes less depth than the one before it. -/
theorem visitDepth_lt {types : List TypeExpr} (htypes : v.types m ⊆ types) (hv : ¬ LeadsBack m v) (h : Leads m v w) :
    visitDepth m types w < visitDepth m types v := by
  have hsame : w.names = v.names → visitDepth m types w < visitDepth m types v := by
    intro hnames
    rw [visitDepth, visitDepth, hnames]
    refine Nat.add_lt_add_left (Set.ncard_lt_ncard ⟨fun u hu => ?_, fun hsubset => ?_⟩ (ahead_finite m types v)) _
    · exact ⟨hu.1, .head h (hnames ▸ hu.2)⟩
    · -- The type of `w` is ahead of `v`, and would be ahead of `w` only if `w` led back to itself.
      have hahead : w.type ∈ ahead m types v := ⟨htypes h.type_mem, .single (hnames ▸ h)⟩
      exact hv ⟨w, .single h, (hsubset hahead).2⟩
  rcases h.cases with ⟨hnames, -⟩ | ⟨hnames, -⟩ | ⟨-, name, hname, hnew, hnames⟩
  · exact hsame hnames
  · exact hsame hnames
  · have hfree := Nat.mul_le_mul_right (types.length + 1) (Module.free_cons_lt hname hnew)
    rw [Nat.succ_mul, ← hnames] at hfree
    have hahead := ncard_ahead_le m types w
    unfold visitDepth
    omega

theorem endsAt_of_not_leadsBack {types : List TypeExpr} (htypes : v.types m ⊆ types) (hv : ¬ LeadsBack m v) {n : Nat}
    (hn : visitDepth m types v < n) : v.EndsAt m n := by
  induction n generalizing v with
  | zero => cases hn
  | succ n ih =>
    refine (v.endsAt_succ m n).mpr fun w (hw : Leads m v w) => ?_
    refine ih (List.Subset.trans hw.types_subset htypes) (fun hback => hv (hback.of_leads hw)) ?_
    exact (visitDepth_lt htypes hv hw).trans_le (Nat.lt_succ_iff.mp hn)

end Depth

/-- Where there is no intersection, every classification ends. -/
theorem endsAt_of_no_intersection (h : ∀ u ∈ v.types m, ∀ ts, u ≠ .intersection ts) {n : Nat}
    (hn : membersDepth m v.names v.type ≤ n) : v.EndsAt m n := by
  induction n generalizing v with
  | zero => exact absurd hn (Nat.not_le_of_lt (Nat.add_pos_right _ v.type.length_within_pos))
  | succ n ih =>
    refine (v.endsAt_succ m n).mpr fun w (hw : Leads m v w) => ?_
    refine ih (fun u hu => h u (hw.types_subset hu)) (Nat.lt_succ_iff.mp (lt_of_lt_of_le ?_ hn))
    rcases hw.cases with ⟨hnames, -, hsize⟩ | ⟨-, -, ts, hts⟩ | ⟨htype, name, hname, hnew, hnames⟩
    · exact hnames ▸ membersDepth_lt_of_part hsize
    · exact absurd hts (h _ (List.mem_append_right _ (TypeExpr.self_mem_within _)) ts)
    · exact hnames ▸ membersDepth_cons_lt hname hnew htype

/-- **Without intersections, nothing leads back** to itself, however the aliases and interfaces refer to each
other. -/
theorem not_leadsBack_of_no_intersection (h : ∀ u ∈ v.types m, ∀ ts, u ≠ .intersection ts) : ¬ LeadsBack m v :=
  fun hback => hback.not_endsAt _ (endsAt_of_no_intersection h le_rfl)

/-- **When classifications end.** Inside any names, the members of a type are always told. Its node is told, as the
node of a type or of a property, unless the type leads back to itself, and then no depth suffices; only a union of
texts is told at once as a property. Whatever ends leaves the names as it found them. -/
theorem classification_ends_iff (m : Module) (t : TypeExpr) (names : List String) :
    Ends (objectMembers m t) names ∧
      (Ends (nodeOf m (m.depthFor t) t) names ↔ ¬ LeadsBack m ⟨names, t⟩) ∧
      (Ends (propertyNode (nodeOf m (m.depthFor t)) t) names ↔ isFreeText t = true ∨ ¬ LeadsBack m ⟨names, t⟩) ∧
      ∀ depth, Ends (nodeOf m depth t) names → ¬ LeadsBack m ⟨names, t⟩ := by
  have hnode : Ends (nodeOf m (m.depthFor t) t) names ↔ ¬ LeadsBack m ⟨names, t⟩ := by
    refine ⟨fun hends hback => hback.not_endsAt _ hends, fun hback => ?_⟩
    let v : Visit := ⟨names, t⟩
    refine endsAt_of_not_leadsBack (List.Subset.refl (v.types m)) hback ?_
    have hlength : (v.types m).length = m.declaredTypes.length + t.within.length := List.length_append
    have hahead : (ahead m (v.types m) v).ncard ≤ (v.types m).length := ncard_ahead_le m (v.types m) v
    have hfree : m.free v.names * ((v.types m).length + 1) ≤ m.items.length * ((v.types m).length + 2) :=
      Nat.mul_le_mul (m.free_le names) (Nat.le_succ _)
    rw [visitDepth, Module.depthFor, ← hlength, Nat.succ_mul]
    omega
  refine ⟨objectMembers_ends m t names, hnode, ?_, fun depth hends hback => hback.not_endsAt depth hends⟩
  rw [propertyNode_ends, hnode]
  cases isFreeText t <;> simp

/-- The type `I` with a member more. -/
def selfWithMore : TypeExpr :=
  .intersection [.reference "I" [], .object [⟨"a", false, some (.keyword "string"), none, false⟩]]

/-- A module whose interface `I` has a member of the type `I` with a member more. -/
def selfBehindIntersection : Module :=
  ⟨[.interface ⟨"I", [], [⟨"x", false, some selfWithMore, none, false⟩]⟩,
    .function ⟨some "handler", ⟨[⟨.ident "i", false, some selfWithMore, false⟩], false⟩, .named⟩]⟩

/-- Behind an intersection, an interface that is being followed is followed again, and so without end. -/
theorem endless_behind_intersection :
    Module.ofSource
        "interface I \x7b x: I & \x7b a: string \x7d \x7d\nexport function handler(i: I & \x7b a: string \x7d) \x7b\x7d\n" =
      .ok selfBehindIntersection ∧
    ∀ depth, ¬ Ends (nodeOf selfBehindIntersection depth selfWithMore) [] := by
  have hnext : Visit.next selfBehindIntersection ⟨[], selfWithMore⟩ = [⟨[], selfWithMore⟩, ⟨[], .keyword "string"⟩] := rfl
  have hback : LeadsBack selfBehindIntersection ⟨[], selfWithMore⟩ := by
    refine ⟨_, .refl, .single ?_⟩
    rw [Leads, hnext]
    exact List.mem_cons_self
  exact ⟨rfl, hback.not_endsAt⟩

end AppBundler.Classify
