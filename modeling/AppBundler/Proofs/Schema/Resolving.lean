import AppBundler.Schema.Classify
/-!
# Classifications and the names they are inside of

A classification takes the stack of names that are being followed and gives one back. Each function puts on the
stack what it takes off again, so a classification that ends leaves the stack as it found it. Whether one ends is
then told from its parts: every part is run on the same stack, but for the definition of a name, which is run
with that name on top.
-/

namespace AppBundler.Classify

variable {α β : Type} {names : List String} {x : Resolving α} {f : α → Resolving β}

/-- What the definition of a name gives, and what is left of the stack. -/
theorem run_guarded (name : String) (otherwise : α) (x : Resolving α) (names : List String) :
    (guarded name otherwise x).run names =
      if names.contains name then some (otherwise, names)
      else (x.run (name :: names)).map fun answer => (answer.1, answer.2.tail) := by
  by_cases hname : names.contains name = true
  · rw [if_pos hname]
    simp only [guarded, StateT.run_bind, StateT.run_get, Option.pure_def, Option.bind_eq_bind, Option.bind_some, hname,
      if_true, StateT.run_pure]
  · rw [if_neg hname]
    simp only [guarded, StateT.run_bind, StateT.run_get, Option.pure_def, Option.bind_eq_bind, Option.bind_some, hname,
      Bool.false_eq_true, if_false, StateT.run_modify]
    cases x.run (name :: names) <;> rfl

/-! ## Leaving the names as they were -/

/-- A classification leaves the names as it found them whenever it ends, and what it gives has a property. -/
def Keeps (x : Resolving α) (P : α → Prop) : Prop := ∀ names a names', x.run names = some (a, names') → names' = names ∧ P a

namespace Keeps

variable {P : α → Prop} {Q : β → Prop}

theorem pure {a : α} (ha : P a) : Keeps (Pure.pure a) P := by
  intro names b names' h
  rw [StateT.run_pure] at h
  obtain ⟨rfl, rfl⟩ := Prod.mk.inj (Option.some.inj h)
  exact ⟨rfl, ha⟩

theorem failure : Keeps failure P := fun _ _ _ h => nomatch h

theorem bind (hx : Keeps x P) (hf : ∀ a, P a → Keeps (f a) Q) : Keeps (x >>= f) Q := by
  intro names b names' h
  rw [StateT.run_bind] at h
  obtain ⟨⟨a, between⟩, hrun, hnext⟩ := Option.bind_eq_some_iff.mp h
  obtain ⟨rfl, ha⟩ := hx _ _ _ hrun
  exact hf a ha _ _ _ hnext

theorem map {g : α → β} (hx : Keeps x P) (hg : ∀ a, P a → Q (g a)) : Keeps (g <$> x) Q := by
  rw [map_eq_pure_bind]
  exact hx.bind fun a ha => pure (hg a ha)

theorem guarded {otherwise : α} (name : String) (ho : P otherwise) (hx : Keeps x P) :
    Keeps (guarded name otherwise x) P := by
  intro names a names' h
  rw [run_guarded] at h
  split at h
  · obtain ⟨rfl, rfl⟩ := Prod.mk.inj (Option.some.inj h)
    exact ⟨rfl, ho⟩
  · obtain ⟨⟨b, after⟩, hrun, heq⟩ := Option.map_eq_some_iff.mp h
    obtain ⟨rfl, rfl⟩ := Prod.mk.inj heq
    obtain ⟨rfl, hb⟩ := hx _ _ _ hrun
    exact ⟨rfl, hb⟩

theorem of_run' {a : α} (hx : Keeps x P) (h : x.run' names = some a) : P a := by
  rw [StateT.run'_eq] at h
  obtain ⟨⟨b, names'⟩, hrun, rfl⟩ := Option.map_eq_some_iff.mp h
  exact (hx _ _ _ hrun).2

end Keeps

/-- A classification leaves the names as it found them whenever it ends. -/
def Scoped (x : Resolving α) : Prop := Keeps x fun _ => True

namespace Scoped

theorem pure (a : α) : Scoped (Pure.pure a) := Keeps.pure trivial

theorem bind (hx : Scoped x) (hf : ∀ a, Scoped (f a)) : Scoped (x >>= f) := Keeps.bind hx fun a _ => hf a

theorem map (g : α → β) (hx : Scoped x) : Scoped (g <$> x) := Keeps.map hx fun _ _ => trivial

theorem guarded (name : String) (otherwise : α) (hx : Scoped x) : Scoped (guarded name otherwise x) :=
  Keeps.guarded name trivial hx

theorem mapM (hf : ∀ a, Scoped (f a)) (l : List α) : Scoped (l.mapM f) := by
  induction l with
  | nil => exact pure []
  | cons a l ih =>
    rw [List.mapM_cons]
    exact (hf a).bind fun _ => ih.bind fun _ => pure _

end Scoped

/-! ## Two classifications side by side -/

/-- Two classifications inside the same names, where both end, leave the same names, and their answers are
related. -/
def Related (R : α → β → Prop) (x : Resolving α) (y : Resolving β) : Prop :=
  ∀ names a b xs ys, x.run names = some (a, xs) → y.run names = some (b, ys) → xs = ys ∧ R a b

namespace Related

variable {γ δ : Type} {y : Resolving β} {g : β → Resolving δ} {R : α → β → Prop}

theorem pure {a : α} {b : β} (h : R a b) : Related R (Pure.pure a) (Pure.pure b) := by
  intro names a' b' xs ys hx hy
  obtain ⟨rfl, rfl⟩ := Prod.mk.inj (Option.some.inj hx)
  obtain ⟨rfl, rfl⟩ := Prod.mk.inj (Option.some.inj hy)
  exact ⟨rfl, h⟩

theorem failure_left : Related R failure y := fun _ _ _ _ _ hx => nomatch hx

theorem failure_right : Related R x failure := fun _ _ _ _ _ _ hy => nomatch hy

theorem bind {f : α → Resolving γ} {S : γ → δ → Prop} (hxy : Related R x y)
    (hfg : ∀ a b, R a b → Related S (f a) (g b)) : Related S (x >>= f) (y >>= g) := by
  intro names c d xs ys hx hy
  rw [StateT.run_bind] at hx hy
  obtain ⟨⟨a, between⟩, hx, hf⟩ := Option.bind_eq_some_iff.mp hx
  obtain ⟨⟨b, between'⟩, hy, hg⟩ := Option.bind_eq_some_iff.mp hy
  obtain ⟨rfl, hab⟩ := hxy _ _ _ _ _ hx hy
  exact hfg a b hab _ _ _ _ _ hf hg

theorem map {p : α → γ} {q : β → δ} {S : γ → δ → Prop} (hxy : Related R x y) (h : ∀ a b, R a b → S (p a) (q b)) :
    Related S (p <$> x) (q <$> y) := by
  rw [map_eq_pure_bind, map_eq_pure_bind]
  exact hxy.bind fun a b hab => pure (h a b hab)

theorem guarded {a : α} {b : β} (name : String) (h : R a b) (hxy : Related R x y) :
    Related R (guarded name a x) (guarded name b y) := by
  intro names a' b' xs ys hx hy
  rw [run_guarded] at hx hy
  split at hx
  · rename_i hname
    rw [if_pos hname] at hy
    obtain ⟨rfl, rfl⟩ := Prod.mk.inj (Option.some.inj hx)
    obtain ⟨rfl, rfl⟩ := Prod.mk.inj (Option.some.inj hy)
    exact ⟨rfl, h⟩
  · rename_i hname
    rw [if_neg hname] at hy
    obtain ⟨⟨_, after⟩, hxrun, heq⟩ := Option.map_eq_some_iff.mp hx
    obtain ⟨rfl, rfl⟩ := Prod.mk.inj heq
    obtain ⟨⟨_, after'⟩, hyrun, heq⟩ := Option.map_eq_some_iff.mp hy
    obtain ⟨rfl, rfl⟩ := Prod.mk.inj heq
    obtain ⟨rfl, hab⟩ := hxy _ _ _ _ _ hxrun hyrun
    exact ⟨rfl, hab⟩

/-- An answer that is always of some kind is related to one that is given at once. -/
theorem of_keeps {P : α → Prop} {b : β} (hx : Keeps x P) (h : ∀ a, P a → R a b) : Related R x (Pure.pure b) := by
  intro names a b' xs ys hrun hy
  obtain ⟨rfl, rfl⟩ := Prod.mk.inj (Option.some.inj hy)
  obtain ⟨rfl, ha⟩ := hx _ _ _ hrun
  exact ⟨rfl, h a ha⟩

theorem of_run' {names : List String} {a : α} {b : β} (h : Related R x y) (hx : x.run' names = some a)
    (hy : y.run' names = some b) : R a b := by
  rw [StateT.run'_eq] at hx hy
  obtain ⟨⟨_, xs⟩, hxrun, rfl⟩ := Option.map_eq_some_iff.mp hx
  obtain ⟨⟨_, ys⟩, hyrun, rfl⟩ := Option.map_eq_some_iff.mp hy
  exact (h _ _ _ _ _ hxrun hyrun).2

end Related

/-! ## Ending -/

/-- A classification ends, with the names as it found them. -/
def Ends (x : Resolving α) (names : List String) : Prop := ∃ a, x.run names = some (a, names)

theorem not_ends_failure : ¬ Ends (failure : Resolving α) names := fun ⟨_, h⟩ => nomatch h

@[simp] theorem ends_pure (a : α) : Ends (pure a) names := ⟨a, rfl⟩

/-- A step and what follows it end when the step does and what follows its answer does. -/
theorem ends_bind (hx : Scoped x) : Ends (x >>= f) names ↔ ∃ a, x.run names = some (a, names) ∧ Ends (f a) names := by
  constructor
  · rintro ⟨b, h⟩
    rw [StateT.run_bind] at h
    obtain ⟨⟨a, between⟩, hrun, hnext⟩ := Option.bind_eq_some_iff.mp h
    obtain ⟨rfl, -⟩ := hx _ _ _ hrun
    exact ⟨a, hrun, b, hnext⟩
  · rintro ⟨a, hrun, b, hnext⟩
    exact ⟨b, by rw [StateT.run_bind, hrun]; exact hnext⟩

@[simp] theorem ends_map (g : α → β) : Ends (g <$> x) names ↔ Ends x names := by
  simp only [Ends, StateT.run_map, Option.map_eq_map, Option.map_eq_some_iff]
  constructor
  · rintro ⟨b, ⟨a, between⟩, hrun, heq⟩
    obtain ⟨-, rfl⟩ := Prod.mk.inj heq
    exact ⟨a, hrun⟩
  · rintro ⟨a, hrun⟩
    exact ⟨g a, (a, names), hrun, rfl⟩

/-- Steps one after another end when each of them does. -/
theorem ends_mapM (hf : ∀ a, Scoped (f a)) (l : List α) : Ends (l.mapM f) names ↔ ∀ a ∈ l, Ends (f a) names := by
  induction l with
  | nil => simp
  | cons a l ih =>
    rw [List.mapM_cons, ends_bind (hf a), List.forall_mem_cons, ← ih]
    constructor
    · rintro ⟨b, hrun, hrest⟩
      obtain ⟨bs, hrest, -⟩ := (ends_bind (Scoped.mapM hf l)).mp hrest
      exact ⟨⟨b, hrun⟩, bs, hrest⟩
    · rintro ⟨⟨b, hrun⟩, bs, hrest⟩
      exact ⟨b, hrun, (ends_bind (Scoped.mapM hf l)).mpr ⟨bs, hrest, ends_pure _⟩⟩

/-- The definition of a name ends when the name is being followed already, or it ends inside the name. -/
theorem ends_guarded (name : String) (otherwise : α) (hx : Scoped x) :
    Ends (guarded name otherwise x) names ↔ name ∈ names ∨ Ends x (name :: names) := by
  by_cases hname : name ∈ names
  · simp [Ends, run_guarded, hname]
  · simp only [Ends, run_guarded, List.contains_eq_mem, hname, decide_false, Bool.false_eq_true, if_false,
      false_or, Option.map_eq_some_iff]
    constructor
    · rintro ⟨a, ⟨b, after⟩, hrun, -⟩
      obtain ⟨rfl, -⟩ := hx _ _ _ hrun
      exact ⟨b, hrun⟩
    · rintro ⟨a, hrun⟩
      exact ⟨a, (a, name :: names), hrun, rfl⟩

/-! ## One classification in the place of another -/

/-- Where one classification ends, the other does too, with the same names and a related answer. -/
def Refines (R : α → β → Prop) (x : Resolving α) (y : Resolving β) : Prop :=
  ∀ names a names', x.run names = some (a, names') → ∃ b, y.run names = some (b, names') ∧ R a b

namespace Refines

variable {γ δ : Type} {y : Resolving β} {R : α → β → Prop}

theorem pure {a : α} {b : β} (h : R a b) : Refines R (Pure.pure a) (Pure.pure b) := by
  intro names a' names' hrun
  obtain ⟨rfl, rfl⟩ := Prod.mk.inj (Option.some.inj hrun)
  exact ⟨b, rfl, h⟩

theorem failure : Refines R failure y := fun _ _ _ hrun => nomatch hrun

theorem bind {f : α → Resolving γ} {g : β → Resolving δ} {S : γ → δ → Prop} (hxy : Refines R x y)
    (hfg : ∀ a b, R a b → Refines S (f a) (g b)) : Refines S (x >>= f) (y >>= g) := by
  intro names c names' hrun
  rw [StateT.run_bind] at hrun
  obtain ⟨⟨a, between⟩, hx, hf⟩ := Option.bind_eq_some_iff.mp hrun
  obtain ⟨b, hy, hab⟩ := hxy _ _ _ hx
  obtain ⟨d, hg, hcd⟩ := hfg a b hab _ _ _ hf
  exact ⟨d, by rw [StateT.run_bind, hy]; exact hg, hcd⟩

theorem map {p : α → γ} {q : β → δ} {S : γ → δ → Prop} (hxy : Refines R x y) (h : ∀ a b, R a b → S (p a) (q b)) :
    Refines S (p <$> x) (q <$> y) := by
  rw [map_eq_pure_bind, map_eq_pure_bind]
  exact hxy.bind fun a b hab => pure (h a b hab)

theorem guarded {a : α} {b : β} (name : String) (h : R a b) (hxy : Refines R x y) :
    Refines R (guarded name a x) (guarded name b y) := by
  intro names a' names' hrun
  rw [run_guarded] at hrun
  rw [run_guarded]
  split at hrun
  · rename_i hname
    obtain ⟨rfl, rfl⟩ := Prod.mk.inj (Option.some.inj hrun)
    exact ⟨b, if_pos hname, h⟩
  · rename_i hname
    obtain ⟨⟨_, after⟩, hx, heq⟩ := Option.map_eq_some_iff.mp hrun
    obtain ⟨rfl, rfl⟩ := Prod.mk.inj heq
    obtain ⟨b', hy, hab⟩ := hxy _ _ _ hx
    exact ⟨b', by rw [if_neg hname, hy]; rfl, hab⟩

/-- Steps that are taken in the place of others one after another give the same answers. -/
theorem mapM {p : α → γ} {q : β → γ} {f : α → Resolving δ} {g : β → Resolving δ} {l : List α} {l' : List β}
    (h : l.map p = l'.map q) (hfg : ∀ a b, p a = q b → Refines (· = ·) (f a) (g b)) :
    Refines (· = ·) (l.mapM f) (l'.mapM g) := by
  induction l generalizing l' with
  | nil =>
    obtain rfl := List.map_eq_nil_iff.mp h.symm
    exact pure rfl
  | cons a l ih =>
    obtain ⟨b, l', rfl, hab, hl⟩ := List.map_eq_cons_iff.mp h.symm
    rw [List.mapM_cons, List.mapM_cons]
    refine (hfg a b hab.symm).bind ?_
    rintro c _ rfl
    refine (ih hl.symm).bind ?_
    rintro cs _ rfl
    exact pure rfl

end Refines

end AppBundler.Classify
