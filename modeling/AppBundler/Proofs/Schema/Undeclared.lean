import AppBundler.Proofs.Schema.Shapes
import AppBundler.Proofs.Schema.Termination
/-!
# Types that mention nothing declared

A type in which no name is one that a module declares leads only to its own parts. So its members and its node are the
same in all such modules, and a depth as large as the type suffices to tell them.
-/

namespace AppBundler

/-- A name stands in the type as one of a type. -/
def TypeExpr.Mentions (t : TypeExpr) (name : String) : Prop := ∃ args, TypeExpr.reference name args ∈ t.within

namespace Module

variable {m : Module} {t u : TypeExpr}

/-- No name in the type is one of a type that the module declares. -/
def IsForeign (m : Module) (t : TypeExpr) : Prop := ∀ name ∈ m.typeNames, ¬ t.Mentions name

theorem IsForeign.of_mem (h : m.IsForeign t) (hu : u ∈ t.within) : m.IsForeign u :=
  fun name hname ⟨args, hargs⟩ => h name hname ⟨args, (TypeExpr.within_sublist t hu).subset hargs⟩

theorem IsForeign.not_mem {name : String} {args : List TypeExpr} (h : m.IsForeign (.reference name args)) :
    name ∉ m.typeNames :=
  fun hname => h name hname ⟨args, TypeExpr.self_mem_within _⟩

/-- The module declares no enums and no variables. -/
structure TypesOnly (m : Module) : Prop where
  noEnums : ∀ name, m.enum? name = none
  noVariables : ∀ name v, m.binding? name ≠ some (.variable v)

end Module

namespace Classify

variable {α β γ : Type}

/-! ## What is told from the parts -/

/-- With known answers for some types, which nothing is followed for, there is one for the whole, which follows nothing. -/
def ToldFrom (types : List TypeExpr) (f : (TypeExpr → Resolving β) → Resolving α) : Prop :=
  ∀ known : TypeExpr → β, ∃ a, ∀ parts : TypeExpr → Resolving β, (∀ t ∈ types, parts t = pure (known t)) → f parts = pure a

namespace ToldFrom

variable {types : List TypeExpr} {f : (TypeExpr → Resolving β) → Resolving α}

theorem const (a : α) : ToldFrom (β := β) types fun _ => pure a := fun _ => ⟨a, fun _ _ => rfl⟩

theorem part {t : TypeExpr} (ht : t ∈ types) : ToldFrom (β := β) types fun parts => parts t :=
  fun known => ⟨known t, fun _ h => h t ht⟩

theorem bind {g : α → (TypeExpr → Resolving β) → Resolving γ} (hf : ToldFrom types f) (hg : ∀ a, ToldFrom types (g a)) :
    ToldFrom types fun parts => f parts >>= fun a => g a parts := by
  intro known
  obtain ⟨a, ha⟩ := hf known
  obtain ⟨b, hb⟩ := hg a known
  exact ⟨b, fun parts h => by simp only [ha parts h, pure_bind, hb parts h]⟩

theorem map (g : α → γ) (hf : ToldFrom types f) : ToldFrom types fun parts => g <$> f parts := by
  intro known
  obtain ⟨a, ha⟩ := hf known
  exact ⟨g a, fun parts h => by simp only [ha parts h, map_pure]⟩

theorem mapM {g : γ → (TypeExpr → Resolving β) → Resolving α} {l : List γ} (hg : ∀ c ∈ l, ToldFrom types (g c)) :
    ToldFrom types fun parts => l.mapM fun c => g c parts := by
  induction l with
  | nil => exact const []
  | cons c l ih =>
    obtain ⟨hc, hl⟩ := List.forall_mem_cons.mp hg
    simp only [List.mapM_cons]
    exact hc.bind fun a => (ih hl).bind fun as => const (a :: as)

end ToldFrom

variable {answer : Module → Nat → TypeExpr → Resolving α}

/-- The answer for a type is the same in all modules that do not declare what it mentions, once the depth is as large as
the type. -/
def Settles (answer : Module → Nat → TypeExpr → Resolving α) (t : TypeExpr) (a : α) : Prop :=
  ∀ m : Module, m.TypesOnly → m.IsForeign t → ∀ n, t.within.length ≤ n → answer m n t = pure a

/-- **Answers that are told from the parts of a type are settled.** -/
theorem exists_settles [Inhabited α]
    (hstep : ∀ t, ∃ f, ToldFrom t.within.tail f ∧ ∀ m : Module, m.TypesOnly → m.IsForeign t → ∀ k,
      answer m (k + 1) t = f (answer m k)) (t : TypeExpr) : ∃ a, Settles answer t a := by
  induction hlength : t.within.length using Nat.strong_induction_on generalizing t with
  | _ length ih =>
    subst hlength
    have hparts (u : TypeExpr) : ∃ a, u ∈ t.within.tail → Settles answer u a := by
      by_cases hu : u ∈ t.within.tail
      · obtain ⟨a, ha⟩ := ih _ (TypeExpr.length_within_lt hu) u rfl
        exact ⟨a, fun _ => ha⟩
      · exact ⟨default, fun h => absurd h hu⟩
    choose known hknown using hparts
    obtain ⟨f, htold, hanswer⟩ := hstep t
    obtain ⟨a, ha⟩ := htold known
    refine ⟨a, fun m htypes hforeign n hn => ?_⟩
    obtain ⟨k, rfl⟩ : ∃ k, n = k + 1 := ⟨n - 1, by have := t.length_within_pos; omega⟩
    rw [hanswer m htypes hforeign k]
    refine ha _ fun u hu => ?_
    have hlt := TypeExpr.length_within_lt hu
    exact hknown u hu m htypes (hforeign.of_mem (List.mem_of_mem_tail hu)) k (by omega)

/-! ## Members -/

variable {types : List TypeExpr}

theorem mergeParts_told {ts : List TypeExpr} (hts : ∀ t ∈ ts, t ∈ types) (acc : List Member) :
    ToldFrom types fun members => mergeParts members acc ts := by
  induction ts generalizing acc with
  | nil => exact ToldFrom.const _
  | cons t ts ih =>
    obtain ⟨ht, hts⟩ := List.forall_mem_cons.mp hts
    refine (ToldFrom.part ht).bind fun found => ?_
    cases found with
    | none => exact ToldFrom.const _
    | some ms => exact ih hts _

/-- **The members of a type are settled.** -/
theorem exists_settles_membersOf (t : TypeExpr) : ∃ found, Settles membersOf t found := by
  refine exists_settles (fun t => ?_) t
  cases t with
  | object ms => exact ⟨_, ToldFrom.const _, fun m _ _ k => rfl⟩
  | intersection ts =>
    exact ⟨_, mergeParts_told (fun u hu => TypeExpr.mem_withinAll_of_mem hu) [], fun m _ _ k => rfl⟩
  | union ts =>
    have hmem : ∀ u ∈ TypeExpr.withoutNullish ts, u ∈ TypeExpr.withinAll ts :=
      fun u hu => TypeExpr.mem_withinAll_of_mem (TypeExpr.mem_of_mem_withoutNullish hu)
    simp only [membersOf]
    split
    · rename_i only heq
      exact ⟨_, ToldFrom.part (hmem only (by rw [heq]; exact List.mem_cons_self)), fun m _ _ k => rfl⟩
    · exact ⟨_, ToldFrom.const _, fun m _ _ k => rfl⟩
  | reference name args =>
    simp only [membersOf]
    split
    · exact ⟨_, (ToldFrom.part (TypeExpr.mem_withinAll_of_mem List.mem_cons_self)).map _, fun m _ _ k => rfl⟩
    · exact ⟨_, ToldFrom.const none, fun m _ hforeign k => namedMembers_of_not_mem hforeign.not_mem⟩
  | _ => exact ⟨_, ToldFrom.const _, fun m _ _ k => rfl⟩

/-! ## Nodes -/

theorem memberNode_told {x : Member} (hx : ∀ t ∈ x.type, t ∈ types) : ToldFrom types fun node => memberNode node x := by
  unfold memberNode
  split
  · rename_i t ht
    unfold propertyNode
    split
    · exact ToldFrom.const _
    · exact ToldFrom.part (hx t ht)
  · exact ToldFrom.const _

theorem objectNode_told {ms : List Member} (hms : Member.TypesIn (· ∈ types) ms) :
    ToldFrom types fun node => objectNode node ms :=
  ToldFrom.map _ (ToldFrom.mapM fun x hx => (memberNode_told (hms.fields x hx)).map _)

theorem arrayNode_told {element : TypeExpr} (helement : ∀ t ∈ element.within, t ∈ types) :
    ToldFrom types fun node => arrayNode node element := by
  have hself := helement element element.self_mem_within
  unfold arrayNode
  split
  · rename_i ts
    have hmem : ∀ u ∈ TypeExpr.withoutNullish ts, u ∈ types := fun u hu =>
      helement u (List.mem_cons_of_mem _ (TypeExpr.mem_withinAll_of_mem (TypeExpr.mem_of_mem_withoutNullish hu)))
    split
    · exact (ToldFrom.part hself).map _
    · rename_i only heq
      exact (ToldFrom.part (hmem only (by rw [heq]; exact List.mem_cons_self))).map _
    · exact (ToldFrom.mapM fun u hu => ToldFrom.part (hmem u hu)).map _
  · exact (ToldFrom.part hself).map _

theorem unionNode_told {ts : List TypeExpr} (hts : ∀ t ∈ ts, t ∈ types) : ToldFrom types fun node => unionNode node ts := by
  have hmem : ∀ u ∈ TypeExpr.withoutNullish ts, u ∈ types := fun u hu => hts u (TypeExpr.mem_of_mem_withoutNullish hu)
  unfold unionNode
  split
  · exact ToldFrom.const _
  · rename_i only heq
    exact ToldFrom.part (hmem only (by rw [heq]; exact List.mem_cons_self))
  · exact (ToldFrom.mapM fun u hu => ToldFrom.part (hmem u hu)).map _

/-- A name that is not declared is not told. -/
theorem namedNode_of_not_mem {m : Module} {name : String} {node : TypeExpr → Resolving Node} (htypes : m.TypesOnly)
    (hname : name ∉ m.typeNames) : namedNode m node name = pure .unknown := by
  have halias : m.alias? name = none :=
    Option.eq_none_iff_forall_ne_some.mpr fun _ h => hname (Module.mem_typeNames_of_alias? h)
  have hinterfaces : m.interfaces name = [] :=
    List.eq_nil_iff_forall_not_mem.mpr fun _ h => hname (Module.mem_typeNames_of_interfaces h)
  rw [namedNode, halias, hinterfaces, htypes.noEnums]

theorem keysNode_of_typesOnly {m : Module} (htypes : m.TypesOnly) (name : String) : keysNode m name = .unknown := by
  rw [keysNode, htypes.noEnums]
  rcases hbinding : m.binding? name with - | ⟨f | v⟩
  · rfl
  · rfl
  · exact absurd hbinding (htypes.noVariables name v)

/-- The members that are settled for an intersection have types inside of it. -/
theorem typesIn_of_settles {ts : List TypeExpr} {ms : List Member} (h : Settles membersOf (.intersection ts) (some ms)) :
    Member.TypesIn (· ∈ TypeExpr.withinAll ts) ms := by
  let none : Module := ⟨[]⟩
  have hnothing : none.TypesOnly := ⟨fun _ => rfl, fun _ _ => (Option.some_ne_none _).symm⟩
  have hfinds : FindsIn (· ∈ TypeExpr.withinAll ts) (mergeParts (membersOf none (TypeExpr.withinAll ts).length) [] ts) := by
    refine mergeParts_findsIn (fun t ht => membersOf_findsIn (fun u hu => absurd hu List.not_mem_nil) _ t fun u hu => ?_) (by simp [Member.TypesIn])
    exact TypeExpr.mem_withinAll.mpr ⟨t, ht, hu⟩
  have hsettled := h none hnothing (fun name hname => absurd hname List.not_mem_nil) _ (Nat.le_refl _)
  have hrun : (mergeParts (membersOf none (TypeExpr.withinAll ts).length) [] ts).run' [] = some (some ms) :=
    congrArg (StateT.run' · []) hsettled
  exact hfinds.of_run' hrun ms rfl

theorem length_within_le_depthFor (m : Module) (t : TypeExpr) : t.within.length ≤ m.depthFor t := by
  rw [Module.depthFor]
  refine le_trans ?_ (Nat.le_mul_of_pos_left _ (Nat.succ_pos _))
  omega

/-- **The node of a type is settled.** -/
theorem exists_settles_nodeOf (t : TypeExpr) : ∃ node, Settles nodeOf t node := by
  refine exists_settles (fun t => ?_) t
  cases t with
  | array element => exact ⟨_, arrayNode_told fun u hu => hu, fun m _ _ k => rfl⟩
  | union ts => exact ⟨_, unionNode_told fun u hu => TypeExpr.mem_withinAll_of_mem hu, fun m _ _ k => rfl⟩
  | object ms =>
    have hms : Member.TypesIn (· ∈ TypeExpr.withinMembers ms) ms := fun x hx u hu =>
      TypeExpr.mem_withinMembers.mpr ⟨x, hx, u, hu, u.self_mem_within⟩
    exact ⟨_, objectNode_told hms, fun m _ _ k => rfl⟩
  | intersection ts =>
    obtain ⟨found, hfound⟩ := exists_settles_membersOf (.intersection ts)
    have hmembers (m : Module) (htypes : m.TypesOnly) (hforeign : m.IsForeign (.intersection ts)) :
        objectMembers m (.intersection ts) = pure found :=
      hfound m htypes hforeign _ (length_within_le_depthFor m _)
    cases found with
    | none =>
      refine ⟨_, ToldFrom.const .unknown, fun m htypes hforeign k => ?_⟩
      rw [nodeOf, hmembers m htypes hforeign, pure_bind]
    | some ms =>
      refine ⟨_, objectNode_told (typesIn_of_settles hfound), fun m htypes hforeign k => ?_⟩
      rw [nodeOf, hmembers m htypes hforeign, pure_bind]
  | reference name args =>
    cases hbuiltIn : builtIn? name args with
    | none =>
      refine ⟨_, ToldFrom.const .unknown, fun m htypes hforeign k => ?_⟩
      rw [nodeOf, hbuiltIn]
      exact namedNode_of_not_mem htypes hforeign.not_mem
    | some builtIn =>
      cases builtIn with
      | array element =>
        have helement : ∀ u ∈ element.within, u ∈ TypeExpr.withinAll args := fun u hu =>
          TypeExpr.mem_withinAll.mpr ⟨element, mem_args_of_builtIn? (Or.inl hbuiltIn), hu⟩
        exact ⟨_, arrayNode_told helement, fun m _ _ k => by simp only [nodeOf, hbuiltIn]⟩
      | known node => exact ⟨_, ToldFrom.const node, fun m _ _ k => by simp only [nodeOf, hbuiltIn]⟩
      | same arg =>
        have harg : arg ∈ TypeExpr.withinAll args :=
          TypeExpr.mem_withinAll_of_mem (mem_args_of_builtIn? (Or.inr hbuiltIn))
        exact ⟨_, ToldFrom.part harg, fun m _ _ k => by simp only [nodeOf, hbuiltIn]⟩
  | keyofTypeof name => exact ⟨_, ToldFrom.const .unknown, fun m htypes _ k => by rw [nodeOf, keysNode_of_typesOnly htypes]⟩
  | _ => exact ⟨_, ToldFrom.const _, fun m _ _ k => rfl⟩

end Classify

end AppBundler
