import Mathlib.Data.List.Nodup
import Mathlib.Data.List.Perm.Subperm
import AppBundler.Schema.Chase
/-!
# Chases and their ends

Following a name is a chase from place to place: from a name to the initializer of its first binding, from a call to its
first argument, and from an identifier to the name that it is. Nothing leads to two places, so a chase ends at one place or
it never ends. What is found when a name is followed is what stands at the end of its chase, and a cycle is reported
exactly when there is no end: the names of the chase, up to the first one that comes up again.
-/

namespace AppBundler

namespace Chase

/-- A place of a chase. -/
inductive Place where
  | name (name : String)
  | expr (expr : Expr)

/-- One place leads to another one. -/
inductive Leads (m : Module) : Place → Place → Prop where
  /-- The first binding of the name is a variable with an initializer. -/
  | initializer {name : String} {v : VariableDecl} {e : Expr} (hbinding : m.binding? name = some (.variable v))
      (hinit : v.init = some e) : Leads m (.name name) (.expr e)
  | argument {callee first : Expr} {rest : List Expr} : Leads m (.expr (.call callee (first :: rest))) (.expr first)
  | identifier {name : String} : Leads m (.expr (.ident name)) (.name name)

/-- The way from one place to another one, with the names that it leaves in their order. -/
inductive Way (m : Module) : Place → List String → Place → Prop where
  | here (p : Place) : Way m p [] p
  | name {name : String} {names : List String} {p q : Place} (hstep : Leads m (.name name) p) (hrest : Way m p names q) :
      Way m (.name name) (name :: names) q
  | expr {e : Expr} {names : List String} {p q : Place} (hstep : Leads m (.expr e) p) (hrest : Way m p names q) :
      Way m (.expr e) names q

/-- The chase from a place ends at another one. -/
def EndsAt (m : Module) (p q : Place) : Prop := (∃ names, Way m p names q) ∧ ∀ r, ¬ Leads m q r

/-- The chase from a place never ends. -/
def Endless (m : Module) (p : Place) : Prop := ∀ names q, Way m p names q → ∃ r, Leads m q r

/-- The names of a chase up to the first one that comes up again, which is the last of them. -/
def IsCycleFrom (m : Module) (p : Place) (chain : List String) : Prop :=
  ∃ names again, chain = names ++ [again] ∧ Way m p names (.name again) ∧ names.Nodup ∧ again ∈ names

/-- The function that stands at a place. -/
def functionAt? (m : Module) : Place → Option FunctionSig
  | .name name =>
    match m.binding? name with
    | some (.function f) => some f.sig
    | _ => none
  | .expr (.function sig) => some sig
  | .expr _ => none

/-- The object literal that stands at a place. A function declaration is none. -/
def objectAt? : Place → Option (List (String × Expr))
  | .expr (.object props) => some props
  | _ => none

variable {α : Type} {m : Module} {p q r : Place} {names names' visited : List String} {name : String}

/-! ## Ways -/

theorem Leads.unique (hq : Leads m p q) (hr : Leads m p r) : q = r := by
  cases hq with
  | initializer hbinding hinit =>
    obtain ⟨hbinding', hinit'⟩ := hr
    obtain rfl := Binding.variable.inj (Option.some.inj (hbinding.symm.trans hbinding'))
    rw [Option.some.inj (hinit.symm.trans hinit')]
  | argument =>
    cases hr
    rfl
  | identifier =>
    cases hr
    rfl

namespace Way

theorem append (h : Way m p names q) (h' : Way m q names' r) : Way m p (names ++ names') r := by
  induction h with
  | here => exact h'
  | name hstep _ ih => exact .name hstep (ih h')
  | expr hstep _ ih => exact .expr hstep (ih h')

/-- A name that is left leads on. -/
theorem split (h : Way m p names q) (hname : name ∈ names) :
    ∃ front back r, Way m p front (.name name) ∧ Leads m (.name name) r ∧ Way m r back q := by
  induction h with
  | here => cases hname
  | name hstep hrest ih =>
    rcases List.mem_cons.mp hname with rfl | hname
    · exact ⟨[], _, _, .here _, hstep, hrest⟩
    · obtain ⟨front, back, r, hfront, hleads, hback⟩ := ih hname
      exact ⟨_, back, r, .name hstep hfront, hleads, hback⟩
  | expr hstep hrest ih =>
    obtain ⟨front, back, r, hfront, hleads, hback⟩ := ih hname
    exact ⟨_, back, r, .expr hstep hfront, hleads, hback⟩

/-- Of two places that a chase comes to, one comes before the other one. -/
theorem linear (hq : Way m p names q) (hr : Way m p names' r) : (∃ between, Way m q between r) ∨ ∃ between, Way m r between q := by
  induction hq generalizing names' with
  | here => exact Or.inl ⟨names', hr⟩
  | name hstep hrest ih =>
    cases hr with
    | here => exact Or.inr ⟨_, .name hstep hrest⟩
    | name hstep' hrest' => exact ih (hstep'.unique hstep ▸ hrest')
  | expr hstep hrest ih =>
    cases hr with
    | here => exact Or.inr ⟨_, .expr hstep hrest⟩
    | expr hstep' hrest' => exact ih (hstep'.unique hstep ▸ hrest')

/-- A place that leads nowhere is the last one of a way. -/
theorem eq_of_end (h : Way m p names q) (hend : ∀ r, ¬ Leads m p r) : p = q := by
  cases h with
  | here => rfl
  | name hstep => exact absurd hstep (hend _)
  | expr hstep => exact absurd hstep (hend _)

end Way

/-- A chase has one end. -/
theorem EndsAt.unique (hq : EndsAt m p q) (hr : EndsAt m p r) : q = r := by
  obtain ⟨⟨_, hq⟩, hqend⟩ := hq
  obtain ⟨⟨_, hr⟩, hrend⟩ := hr
  rcases hq.linear hr with ⟨_, hway⟩ | ⟨_, hway⟩
  · exact hway.eq_of_end hqend
  · exact (hway.eq_of_end hrend).symm

theorem EndsAt.not_endless (h : EndsAt m p q) : ¬ Endless m p := by
  intro hendless
  obtain ⟨⟨_, hway⟩, hend⟩ := h
  obtain ⟨r, hleads⟩ := hendless _ _ hway
  exact hend r hleads

/-- What leads to an end ends there. -/
theorem EndsAt.of_way (hway : Way m p names q) (h : EndsAt m q r) : EndsAt m p r := by
  obtain ⟨⟨_, hrest⟩, hend⟩ := h
  exact ⟨⟨_, hway.append hrest⟩, hend⟩

/-- **A chase that comes to a name again never ends.** -/
theorem IsCycleFrom.endless {chain : List String} (h : IsCycleFrom m p chain) : Endless m p := by
  obtain ⟨names, again, -, hway, -, hagain⟩ := h
  obtain ⟨front, back, next, -, hleads, hback⟩ := hway.split hagain
  -- Every place that the chase comes to has a way to the name, and the name has one to itself.
  have hgoes : ∀ {q names}, Way m q names (.name again) → ∃ r, Leads m q r ∧ ∃ names', Way m r names' (.name again) := by
    intro q names hq
    cases hq with
    | here => exact ⟨next, hleads, back, hback⟩
    | name hstep hrest => exact ⟨_, hstep, _, hrest⟩
    | expr hstep hrest => exact ⟨_, hstep, _, hrest⟩
  have hreturns : ∀ {p q names}, Way m p names q → (∃ names', Way m p names' (.name again)) →
      ∃ names', Way m q names' (.name again) := by
    intro p q names hq
    induction hq with
    | here => exact id
    | name hstep _ ih =>
      rintro ⟨_, hp⟩
      obtain ⟨r, hr, hreturn⟩ := hgoes hp
      exact ih (hr.unique hstep ▸ hreturn)
    | expr hstep _ ih =>
      rintro ⟨_, hp⟩
      obtain ⟨r, hr, hreturn⟩ := hgoes hp
      exact ih (hr.unique hstep ▸ hreturn)
  intro _ q hq
  obtain ⟨_, hreturn⟩ := hreturns hq ⟨names, hway⟩
  obtain ⟨r, hr, -⟩ := hgoes hreturn
  exact ⟨r, hr⟩

/-! ## Steps -/

/-- A step tells where the chase from a name comes to: to an end with what was looked for, to an end without it, or to the
next name. -/
def Step.TellsChase (m : Module) (at? : Place → Option α) (name : String) : Step α → Prop
  | .found value => ∃ q, EndsAt m (.name name) q ∧ at? q = some value
  | .deadEnd => ∃ q, EndsAt m (.name name) q ∧ at? q = none
  | .goOn next => Way m (.name name) [name] (.name next)

/-- A call passes on the expression that its first arguments lead to, which is no call; or they lead to a call without
arguments. -/
theorem passedOn_cases (m : Module) (e : Expr) :
    (∃ passed, e.passedOn = some passed ∧ Way m (.expr e) [] (.expr passed) ∧ ∀ callee args, passed ≠ .call callee args) ∨
      (e.passedOn = none ∧ ∃ callee, Way m (.expr e) [] (.expr (.call callee []))) := by
  fun_induction Expr.passedOn e with
  | case1 callee first rest ih =>
    rcases ih with ⟨passed, hpassed, hway, hcall⟩ | ⟨hpassed, callee', hway⟩
    · exact Or.inl ⟨passed, hpassed, .expr .argument hway, hcall⟩
    · exact Or.inr ⟨hpassed, callee', .expr .argument hway⟩
  | case2 callee => exact Or.inr ⟨rfl, callee, .here _⟩
  | case3 e hcall hempty =>
    refine Or.inl ⟨e, rfl, .here _, ?_⟩
    rintro callee (_ | ⟨first, rest⟩) rfl
    · exact hempty callee rfl
    · exact hcall callee first rest rfl

/-- The step from an expression that is passed on, towards what may stand at places. -/
def stepTowards (at? : Place → Option α) : Expr → Step α
  | .ident name => .goOn name
  | e => (at? (.expr e)).elim .deadEnd .found

/-- **The step from an initializer tells the chase**, towards whatever does not stand at a call. -/
theorem tellsChase_of_initializer {at? : Place → Option α} {e : Expr} (hstep : Leads m (.name name) (.expr e))
    (hcall : ∀ callee, at? (.expr (.call callee [])) = none) :
    (e.passedOn.elim .deadEnd (stepTowards at?)).TellsChase m at? name := by
  have hends : ∀ passed, Way m (.expr e) [] (.expr passed) → (∀ r, ¬ Leads m (.expr passed) r) →
      ((at? (.expr passed)).elim .deadEnd Step.found).TellsChase m at? name := by
    intro passed hway hend
    have hplace : EndsAt m (.name name) (.expr passed) := ⟨⟨_, .name hstep hway⟩, hend⟩
    cases hvalue : at? (.expr passed) with
    | none => exact ⟨_, hplace, hvalue⟩
    | some value => exact ⟨_, hplace, hvalue⟩
  rcases passedOn_cases m e with ⟨passed, hpassed, hway, hnotCall⟩ | ⟨hpassed, callee, hway⟩
  · rw [hpassed]
    cases passed with
    | ident next => exact .name hstep (hway.append (.expr .identifier (.here _)))
    | call callee args => exact absurd rfl (hnotCall callee args)
    | _ => exact hends _ hway nofun
  · rw [hpassed]
    have hdead := hends _ hway nofun
    rwa [hcall callee] at hdead

theorem functionStepOf_eq (m : Module) (e : Expr) :
    functionStepOf e = e.passedOn.elim .deadEnd (stepTowards (functionAt? m)) := by
  rw [functionStepOf]
  rcases e.passedOn with _ | passed
  · rfl
  · cases passed <;> rfl

theorem objectStepOf_eq (e : Expr) : objectStepOf e = e.passedOn.elim .deadEnd (stepTowards objectAt?) := by
  rw [objectStepOf]
  rcases e.passedOn with _ | passed
  · rfl
  · cases passed <;> rfl

/-- A name without an initializer is an end. -/
theorem endsAt_name (h : ∀ v, m.binding? name = some (.variable v) → v.init = none) :
    EndsAt m (.name name) (.name name) := by
  refine ⟨⟨[], .here _⟩, ?_⟩
  rintro _ ⟨hbinding, hinit⟩
  rw [h _ hbinding] at hinit
  cases hinit

theorem functionStep_tellsChase (m : Module) (name : String) : (functionStep m name).TellsChase m (functionAt? m) name := by
  rw [functionStep]
  rcases hbinding : m.binding? name with - | ⟨f | v⟩
  · exact ⟨_, endsAt_name (by simp [hbinding]), by simp [functionAt?, hbinding]⟩
  · exact ⟨_, endsAt_name (by simp [hbinding]), by simp [functionAt?, hbinding]⟩
  · cases hinit : v.init with
    | none =>
      simp only [hinit, Option.elim_none]
      exact ⟨_, endsAt_name (by simpa [hbinding] using hinit), by simp [functionAt?, hbinding]⟩
    | some e =>
      simp only [hinit, Option.elim_some, functionStepOf_eq m]
      exact tellsChase_of_initializer (.initializer hbinding hinit) fun _ => rfl

theorem objectStep_tellsChase (m : Module) (name : String) : (objectStep m name).TellsChase m objectAt? name := by
  rw [objectStep]
  rcases hbinding : m.binding? name with - | ⟨f | v⟩
  · exact ⟨_, endsAt_name (by simp [hbinding]), rfl⟩
  · exact ⟨_, endsAt_name (by simp [hbinding]), rfl⟩
  · cases hinit : v.init with
    | none =>
      simp only [hinit, Option.elim_none]
      exact ⟨_, endsAt_name (by simpa [hbinding] using hinit), rfl⟩
    | some e =>
      simp only [hinit, Option.elim_some, objectStepOf_eq]
      exact tellsChase_of_initializer (.initializer hbinding hinit) fun _ => rfl

/-! ## Enough steps -/

/-- The names of the variables of a module. -/
def variableNames (m : Module) : List String :=
  m.items.filterMap fun
    | .variable v => some v.name
    | _ => none

theorem mem_variableNames_of_leads (h : Leads m (.name name) p) : name ∈ variableNames m := by
  obtain ⟨hbinding, -⟩ := h
  obtain ⟨item, hitem, heq⟩ := List.exists_of_findSome?_eq_some hbinding
  refine List.mem_filterMap.mpr ⟨item, hitem, ?_⟩
  cases item <;> simp at heq
  exact congrArg some heq.1

/-- Ways that leave no name twice leave no more names than there are items. -/
theorem Way.length_le (h : Way m p names q) (hnodup : names.Nodup) : names.length ≤ m.items.length := by
  have hsubset : names ⊆ variableNames m := by
    intro name hname
    obtain ⟨_, _, _, -, hleads, -⟩ := h.split hname
    exact mem_variableNames_of_leads hleads
  exact Nat.le_trans (hnodup.subperm hsubset).length_le (List.length_filterMap_le _ _)

/-- What following a name gives: what stands at the end of the chase, or a cycle when there is no end. -/
def TellsEnd (m : Module) (at? : Place → Option α) (p : Place) : Except NameCycle (Option α) → Prop
  | .ok found => ∃ q, EndsAt m p q ∧ at? q = found
  | .error cycle => IsCycleFrom m p cycle.chain

/-- **Following steps comes to the end of the chase**, or to a name that it left before. -/
theorem follow_tellsEnd {step : String → Step α} {at? : Place → Option α} (hstep : ∀ name, (step name).TellsChase m at? name)
    {n : Nat} (hway : Way m p visited (.name name)) (hnodup : visited.Nodup) (hn : m.items.length < n + visited.length) :
    TellsEnd m at? p (follow step n visited name) := by
  induction n generalizing visited name with
  | zero =>
    have hlength := hway.length_le hnodup
    omega
  | succ n ih =>
    rw [follow]
    by_cases hagain : name ∈ visited
    · rw [if_pos (by simpa using hagain)]
      exact ⟨visited, name, rfl, hway, hnodup, hagain⟩
    · rw [if_neg (by simpa using hagain)]
      have hnext := hstep name
      cases htold : step name with
      | found value =>
        rw [htold] at hnext
        obtain ⟨q, hends, hvalue⟩ := hnext
        exact ⟨q, hends.of_way hway, hvalue⟩
      | deadEnd =>
        rw [htold] at hnext
        obtain ⟨q, hends, hvalue⟩ := hnext
        exact ⟨q, hends.of_way hway, hvalue⟩
      | goOn next =>
        rw [htold] at hnext
        refine ih (hway.append hnext) ?_ ?_
        · rw [List.nodup_append]
          exact ⟨hnodup, List.nodup_singleton _, by simpa using fun a ha => ne_of_mem_of_not_mem ha hagain⟩
        · rw [List.length_append, List.length_singleton]
          omega

/-- What is found for a name is what its chase leads to: the value at the end of the chase, nothing when none stands there,
and a cycle exactly when the chase never ends, which begins with the name and lists the names of the chase up to the first
one that comes up again. -/
structure ResolvesTo (m : Module) (at? : Place → Option α) (name : String) (result : Except NameCycle (Option α)) : Prop where
  ok_iff : ∀ found, result = .ok found ↔ ∃ q, EndsAt m (.name name) q ∧ at? q = found
  error_iff : (∃ cycle, result = .error cycle) ↔ Endless m (.name name)
  cycle : ∀ cycle, result = .error cycle → cycle.name = name ∧ IsCycleFrom m (.name name) cycle.chain

/-- The names of a chase begin with the one that it starts at. -/
theorem IsCycleFrom.headD {chain : List String} (h : IsCycleFrom m (.name name) chain) : chain.headD "" = name := by
  obtain ⟨names, again, rfl, hway, -, hagain⟩ := h
  cases hway with
  | here => cases hagain
  | name => rfl

theorem TellsEnd.resolvesTo {at? : Place → Option α} {result : Except NameCycle (Option α)}
    (h : TellsEnd m at? (.name name) result) : ResolvesTo m at? name result := by
  cases result with
  | ok found =>
    obtain ⟨q, hends, hvalue⟩ := h
    refine ⟨fun found' => ⟨?_, ?_⟩, ⟨nofun, fun hendless => absurd hendless hends.not_endless⟩, nofun⟩
    · rintro ⟨⟩
      exact ⟨q, hends, hvalue⟩
    · rintro ⟨r, hr, hvalue'⟩
      rw [← hvalue, ← hvalue', hends.unique hr]
  | error cycle =>
    refine ⟨fun found => ⟨nofun, ?_⟩, ⟨fun _ => h.endless, fun _ => ⟨cycle, rfl⟩⟩, ?_⟩
    · rintro ⟨q, hends, -⟩
      exact absurd h.endless hends.not_endless
    · rintro _ ⟨⟩
      exact ⟨h.headD, h⟩

/-- **Following a name is a complete chase**, towards functions and towards object literals. -/
theorem resolves_at_end_of_chase (m : Module) (name : String) :
    ResolvesTo m (functionAt? m) name (m.resolveFunction name) ∧ ResolvesTo m objectAt? name (m.resolveObject name) := by
  have hlimit : m.items.length < m.stepLimit + ([] : List String).length := by
    rw [Module.stepLimit, List.length_nil]
    omega
  constructor
  · exact (follow_tellsEnd (functionStep_tellsChase m) (.here _) List.nodup_nil hlimit).resolvesTo
  · exact (follow_tellsEnd (objectStep_tellsChase m) (.here _) List.nodup_nil hlimit).resolvesTo

/-- A name whose chase comes to a cycle that it is not on itself. -/
example : Module.resolveFunction
    ⟨[.variable ⟨"a", none, some (.ident "b"), .none⟩,
      .variable ⟨"b", none, some (.call (.ident "wrap") [.ident "a"]), .none⟩,
      .variable ⟨"handler", none, some (.ident "a"), .named⟩]⟩ "handler" = .error ⟨["handler", "a", "b", "a"]⟩ := rfl

end Chase

end AppBundler
