import AppBundler.Proofs.Source.Tree.Items
/-!
# Progress

The parsers count down how deep they hand over to each other, and every loop counts down its rounds. Neither count runs
out: each round of a loop leaves it or goes on behind more tokens, and what is handed over stands behind a token at least.
So a parse does not go deeper than there are tokens, no loop goes more rounds than there are tokens, but for one in which
it ends, and greater counts change nothing.
-/

namespace AppBundler

open Cursor

namespace Cursor

/-- A place is reached from another one by passing tokens, one at least. -/
def IsBeyond (d c : Cursor) : Prop := ∃ passed, passed ≠ [] ∧ c.ahead = passed ++ d.ahead ∧ d.before = passed.getLast?

/-- A place that is reached from `c`. -/
def Reached (c : Cursor) : Cursor → Cursor → Prop := fun d _ => ∃ n, d = next^[n] c

variable {c d e : Cursor} {k : Nat}

theorem alike_reached (c : Cursor) : Alike .exact (Reached c) c c := .self fun n => ⟨n, rfl⟩

/-- A place with fewer tokens left is beyond the one from which it was reached. -/
theorem Near.isBeyond (h : Near .exact (Reached c) c.ahead.length d e) : d.IsBeyond c := by
  obtain ⟨halike, hlt⟩ := h
  obtain ⟨n, rfl⟩ := halike.place
  rw [iterate_next] at hlt ⊢
  have hpassed : c.ahead.take n ≠ [] := by
    intro hnil
    have happend := List.take_append_drop n c.ahead
    rw [hnil, List.nil_append] at happend
    rw [happend] at hlt
    exact Nat.lt_irrefl _ hlt
  refine ⟨c.ahead.take n, hpassed, (List.take_append_drop n c.ahead).symm, ?_⟩
  rw [List.getLast?_eq_some_getLast hpassed]
  rfl

/-- A punctuator that comes next is passed. -/
theorem Alike.eat?_self {L : Likeness} {P : Cursor → Cursor → Prop} (h : Alike L P c c) (punct : String) :
    c.eat? punct = none ∨ ∃ d, c.eat? punct = some d ∧ Near L P c.ahead.length d d := by
  rcases h.eat? punct with ⟨hc, -⟩ | ⟨d, d', hd, hd', hnear⟩
  · exact .inl hc
  · obtain rfl : d = d' := Option.some.inj (hd.symm.trans hd')
    exact .inr ⟨d, hd, hnear⟩

end Cursor

/-- The outcome does not come from a count that has run out. -/
def Parsed.InTime {α : Type} (x : Parsed α) : Prop := ∀ e, x = .error e → e.problem ≠ .tooDeep

theorem Cursor.unexpected_ne_tooDeep (c : Cursor) (expected : Expectation) :
    (c.unexpected expected).problem ≠ .tooDeep := by
  intro hdeep
  rw [Cursor.unexpected] at hdeep
  split at hdeep <;> cases hdeep

theorem Parsed.Rel.inTime {P : Cursor → Cursor → Prop} {α : Type} {R : α → α → Prop} {x y : Parsed α}
    (h : Parsed.Rel P R x y) : x.InTime := by
  intro e hx
  obtain ⟨c, d, expected, -, rfl, -⟩ := h.exists_of_error hx
  exact c.unexpected_ne_tooDeep expected

/-- Readers that reach the same places have the same outcome. -/
theorem Parsed.Rel.eq_of_places {α : Type} [Reworded α] {k : Nat} {x y : Parsed (α × Cursor)}
    (h : Parsed.Rel Eq (NearLike .exact Eq k) x y) : x = y := by
  cases h with
  | @ok a b hpair =>
    have hvalue : reword id a.1 = reword id b.1 := hpair.1
    rw [reword_id, reword_id] at hvalue
    rw [Prod.ext hvalue hpair.2.1.place]
  | error expected hplaces => rw [hplaces]

/-- What a reader that is related to itself has read. -/
theorem Parsed.Rel.near {L : Likeness} {P : Cursor → Cursor → Prop} {α : Type} [Reworded α] {k : Nat}
    {x : Parsed (α × Cursor)} {a : α} {d : Cursor} (h : Parsed.Rel P (NearLike L P k) x x) (hx : x = .ok (a, d)) : Near L P k d d := by
  rw [hx] at h
  exact h.of_ok.2

/-! ## Rounds of loops -/

section Rounds

variable {L : Likeness} {P : Cursor → Cursor → Prop} {σ β : Type} {place : σ → Cursor} {loop : Nat → σ → Parsed β} {c : Cursor}

/-- What is left of a round that began at `c` leaves the loop, whatever the count of rounds is, or goes on with a round
that begins beyond `c`. -/
def GoesOn (place : σ → Cursor) (loop : Nat → σ → Parsed β) (c : Cursor) (rest : Nat → Parsed β) : Prop :=
  (∃ x, x.InTime ∧ ∀ n, rest n = x) ∨ ∃ s, ∃ g : β → Parsed β, (place s).IsBeyond c ∧ ∀ n, rest n = loop n s >>= g

/-- Every round of a loop that begins at `s` leaves the loop or goes on beyond its place. -/
def Advances (place : σ → Cursor) (loop : Nat → σ → Parsed β) (s : σ) : Prop :=
  GoesOn place loop (place s) fun n => loop (n + 1) s

namespace GoesOn

theorem leave (b : β) : GoesOn place loop c fun _ => .ok b := by
  refine .inl ⟨.ok b, ?_, fun _ => rfl⟩
  rintro _ ⟨⟩

theorem fails (d : Cursor) (expected : Expectation) : GoesOn place loop c fun _ => .error (d.unexpected expected) := by
  refine .inl ⟨.error (d.unexpected expected), ?_, fun _ => rfl⟩
  rintro _ ⟨⟩
  exact d.unexpected_ne_tooDeep expected

theorem again {s : σ} (h : (place s).IsBeyond c) : GoesOn place loop c fun n => loop n s :=
  .inr ⟨s, .ok, h, fun n => (bind_pure (loop n s)).symm⟩

theorem againWith {s : σ} (h : (place s).IsBeyond c) (g : β → Parsed β) : GoesOn place loop c fun n => loop n s >>= g :=
  .inr ⟨s, g, h, fun _ => rfl⟩

theorem ite {p : Prop} [Decidable p] {x y : Nat → Parsed β} (hx : p → GoesOn place loop c x)
    (hy : ¬ p → GoesOn place loop c y) : GoesOn place loop c fun n => if p then x n else y n := by
  by_cases hp : p
  · simpa only [if_pos hp] using hx hp
  · simpa only [if_neg hp] using hy hp

/-- A reader that does not know the count of rounds comes first. -/
theorem bind {α : Type} {x : Parsed α} {R : α → α → Prop} (hx : Parsed.Rel P R x x) {rest : Nat → α → Parsed β}
    (h : ∀ a, R a a → GoesOn place loop c fun n => rest n a) : GoesOn place loop c fun n => x >>= rest n := by
  cases hcase : x with
  | ok a =>
    rw [hcase] at hx
    exact h a hx.of_ok
  | error e =>
    obtain ⟨d, -, expected, -, rfl, -⟩ := hx.exists_of_error hcase
    exact fails d expected

theorem bindPair {α : Type} {k : Nat} {x : Parsed (α × Cursor)} (hx : Parsed.Rel P (NearPair L P k) x x)
    {rest : Nat → α × Cursor → Parsed β}
    (h : ∀ a d, Alike L P d d → d.ahead.length < k → GoesOn place loop c fun n => rest n (a, d)) :
    GoesOn place loop c fun n => x >>= rest n :=
  bind hx fun pair hpair => h pair.1 pair.2 hpair.2.1 hpair.2.2

theorem bindLike {α : Type} [Reworded α] {k : Nat} {x : Parsed (α × Cursor)} (hx : Parsed.Rel P (NearLike L P k) x x)
    {rest : Nat → α × Cursor → Parsed β}
    (h : ∀ a d, Alike L P d d → d.ahead.length < k → GoesOn place loop c fun n => rest n (a, d)) :
    GoesOn place loop c fun n => x >>= rest n :=
  bind hx fun pair hpair => h pair.1 pair.2 hpair.2.1 hpair.2.2

theorem bindNear {k : Nat} {x : Parsed Cursor} (hx : Parsed.Rel P (Near L P k) x x) {rest : Nat → Cursor → Parsed β}
    (h : ∀ d, Alike L P d d → d.ahead.length < k → GoesOn place loop c fun n => rest n d) :
    GoesOn place loop c fun n => x >>= rest n :=
  bind hx fun d hnear => h d hnear.1 hnear.2

/-- A punctuator that comes next is passed, or the reader goes on without it. -/
theorem eat {d : Cursor} (h : Alike L P d d) {punct : String} {x : Nat → Parsed β} {y : Nat → Cursor → Parsed β}
    (hnone : GoesOn place loop c x)
    (hsome : ∀ e, Alike L P e e → e.ahead.length < d.ahead.length → GoesOn place loop c fun n => y n e) :
    GoesOn place loop c fun n =>
      match d.eat? punct with
      | none => x n
      | some e => y n e := by
  rcases h.eat?_self punct with hd | ⟨e, he, h', hlt⟩
  · simpa only [hd] using hnone
  · simpa only [he] using hsome e h' hlt

/-- The same with the cases the other way around. -/
theorem eatFirst {d : Cursor} (h : Alike L P d d) {punct : String} {x : Nat → Parsed β} {y : Nat → Cursor → Parsed β}
    (hsome : ∀ e, Alike L P e e → e.ahead.length < d.ahead.length → GoesOn place loop c fun n => y n e)
    (hnone : GoesOn place loop c x) :
    GoesOn place loop c fun n =>
      match d.eat? punct with
      | some e => y n e
      | none => x n := by
  rcases h.eat?_self punct with hd | ⟨e, he, h', hlt⟩
  · simpa only [hd] using hnone
  · simpa only [he] using hsome e h' hlt

end GoesOn

end Rounds

/-! ## The loops -/

section Loops

variable {inner : Inner} {c : Cursor} {k : Nat}

theorem Pattern.parseProps_advances (hi : Inner.Rel .exact (Reached c) k inner inner) (hk : c.ahead.length < k) :
    Advances id (Pattern.parseProps inner) c := by
  have h := alike_reached c
  simp only [Advances, id, Pattern.parseProps]
  refine .ite (fun _ => .leave _) fun _ => .ite (fun _ => .fails _ _) fun _ => ?_
  refine .eatFirst h (fun c₁ h₁ hlt₁ => ?_) ?_
  · refine .bindPair h₁.identifier fun name c₂ h₂ hlt₂ => ?_
    exact .again ((h₂.skip ",").mono (by omega)).isBeyond
  · refine .bindPair h.propertyKey fun key c₁ h₁ hlt₁ => ?_
    refine .bindNear (skipTarget_rel h₁) fun c₂ h₂ hlt₂ => ?_
    refine .bindLike (hi.initializer? h₂ (by omega)) fun init c₃ h₃ hlt₃ => ?_
    exact .eat h₃ (.leave _) fun c₄ h₄ hlt₄ => .againWith (h₄.near (by omega)).isBeyond _

theorem Param.parseRest_advances (hi : Inner.Rel .exact (Reached c) k inner inner) (hk : c.ahead.length < k) :
    Advances id (Param.parseRest inner) c := by
  have h := alike_reached c
  simp only [Advances, id, Param.parseRest]
  refine .ite (fun _ => .leave _) fun _ => .ite (fun _ => .fails _ _) fun _ => ?_
  refine .bindLike (parse_rel hi h (by omega)) fun p c₁ h₁ hlt₁ => ?_
  exact .eat h₁ (.leave _) fun c₂ h₂ hlt₂ => .againWith (h₂.near (by omega)).isBeyond _

theorem TypeExpr.parseMembers_advances (hi : Inner.Rel .exact (Reached c) k inner inner) (hk : c.ahead.length < k) :
    Advances id (TypeExpr.parseMembers inner) c := by
  have h := alike_reached c
  simp only [Advances, id, TypeExpr.parseMembers]
  refine .ite (fun _ => .leave _) fun _ => .ite (fun _ => .fails _ _) fun hend => ?_
  have hne : c.ahead ≠ [] := by simpa [Cursor.atEnd] using hend
  refine .ite (fun _ => .again (h.next_near hne).isBeyond) fun _ => ?_
  obtain ⟨h₁, hlt₁⟩ := skipReadonly_near h
  refine .ite (fun hsignature => ?_) fun _ => ?_
  · obtain ⟨hne₁, hbrace⟩ := not_brace_of_isSignature hsignature
    exact .again ((h₁.skipTypeMember hne₁ hbrace).mono (by omega)).isBeyond
  · refine .bindPair (memberKey_rel h₁) fun key c₂ h₂ hlt₂ => ?_
    obtain ⟨h₃, hlt₃⟩ := h₂.skip "?"
    refine .bind (memberType_rel hi h₃ (by omega)) ?_
    rintro ⟨type, method, c₄⟩ ⟨-, -, hnear₄⟩
    obtain ⟨h₄, hlt₄⟩ : Near .exact (Reached c) _ c₄ c₄ := hnear₄
    have hle := length_next_le (c := c₄)
    have hpassed : Near .exact (Reached c) c.ahead.length (if c₄.nextIs ";" || c₄.nextIs "," then c₄.next else c₄)
        (if c₄.nextIs ";" || c₄.nextIs "," then c₄.next else c₄) :=
      rel_ite (fun _ => h₄.next.near (by omega)) fun _ => h₄.near (by omega)
    dsimp only
    generalize (if c₄.nextIs ";" || c₄.nextIs "," then c₄.next else c₄) = c₅ at hpassed ⊢
    exact .ite (fun _ => .fails _ _) fun _ => .againWith (s := c₅) hpassed.isBeyond _

theorem TypeExpr.parseArgs_advances (hi : Inner.Rel .exact (Reached c) k inner inner) (hk : c.ahead.length < k) :
    Advances id (TypeExpr.parseArgs inner) c := by
  have h := alike_reached c
  simp only [Advances, id, TypeExpr.parseArgs]
  refine .ite (fun _ => .leave _) fun _ => ?_
  refine .bindLike (hi.type h hk) fun t c₁ h₁ hlt₁ => ?_
  exact .eat h₁ (.leave _) fun c₂ h₂ hlt₂ => .againWith (h₂.near (by omega)).isBeyond _

/-- The loop over the suffixes of a type also keeps the type that it has read. -/
theorem TypeExpr.parseSuffixes_advances (t : TypeExpr) (c : Cursor) :
    Advances Prod.snd (fun n (s : TypeExpr × Cursor) => TypeExpr.parseSuffixes s.1 n s.2) (t, c) := by
  have h := alike_reached c
  simp only [Advances, TypeExpr.parseSuffixes]
  refine .ite (fun hnext => ?_) fun _ => .leave _
  have hlt₁ := length_next_lt (ne_nil_of_nextIs (Bool.and_eq_true_iff.mp hnext).1)
  have hle := length_next_le (c := c.next)
  refine .ite (fun _ => .again (s := (t.array, c.next.next)) (h.next.next.near (by omega)).isBeyond) fun _ => ?_
  exact .bindNear h.skipGroup fun c₁ h₁ hlt₁ => .again (s := (TypeExpr.other, c₁)) (h₁.near hlt₁).isBeyond

theorem TypeExpr.parseOperands_advances {operator : String} {operand : Cursor → Parsed (TypeExpr × Cursor)}
    (hoperand : ∀ {d}, Alike .exact (Reached c) d d → d.ahead.length ≤ k →
      Parsed.Rel (Reached c) (NearLike .exact (Reached c) d.ahead.length) (operand d) (operand d))
    (hk : c.ahead.length < k) : Advances id (TypeExpr.parseOperands operator operand) c := by
  have h := alike_reached c
  simp only [Advances, id, TypeExpr.parseOperands]
  refine .eat h (.leave _) fun c₁ h₁ hlt₁ => ?_
  exact .bindLike (hoperand h₁ (by omega)) fun t c₂ h₂ hlt₂ => .againWith (h₂.near (by omega)).isBeyond _

theorem Expr.parseArgsRest_advances (hi : Inner.Rel .exact (Reached c) k inner inner) (hk : c.ahead.length < k) :
    Advances id (Expr.parseArgsRest inner) c := by
  have h := alike_reached c
  simp only [Advances, id, Expr.parseArgsRest]
  refine .ite (fun _ => .leave _) fun _ => .ite (fun _ => .fails _ _) fun _ => ?_
  refine .bindLike (parseArg_rel hi h hk) fun e c₁ h₁ hlt₁ => ?_
  exact .eat h₁ (.leave _) fun c₂ h₂ hlt₂ => .againWith (h₂.near (by omega)).isBeyond _

theorem Expr.parseProps_advances (hi : Inner.Rel .exact (Reached c) k inner inner) (hk : c.ahead.length < k) :
    Advances id (Expr.parseProps inner) c := by
  have h := alike_reached c
  simp only [Advances, id, Expr.parseProps]
  refine .ite (fun _ => .leave _) fun _ => .ite (fun _ => .fails _ _) fun _ => ?_
  refine .eatFirst h (fun c₁ h₁ hlt₁ => ?_) (.ite (fun _ => ?_) fun _ => ?_)
  · obtain ⟨h₂, hlt₂⟩ := h₁.skipExpr
    exact .again ((h₂.skip ",").mono (by omega)).isBeyond
  · have hle := length_next_le (c := c)
    refine .bindPair h.next.propertyKey fun _ c₁ h₁ hlt₁ => ?_
    refine .bindLike (FunctionSig.parse_rel hi false h₁ (by omega)) fun _ c₂ h₂ hlt₂ => ?_
    exact .again ((h₂.skip ",").mono (by omega)).isBeyond
  · generalize (c.nextIsIdent "async" && isModifier c) = isAsync
    obtain ⟨h₁, hlt₁⟩ : Near .exact (Reached c) (c.ahead.length + 1) (if isAsync then c.next else c)
        (if isAsync then c.next else c) :=
      rel_ite (fun _ => ⟨h.next, Nat.lt_succ_of_le length_next_le⟩) fun _ => h.near (Nat.lt_succ_self _)
    obtain ⟨h₂, hlt₂⟩ := h₁.skip "*"
    refine .bindPair h₂.propertyKey fun key c₃ h₃ hlt₃ => ?_
    refine .bindLike (parsePropValue_rel hi isAsync key h₃ (by omega)) fun value c₄ h₄ hlt₄ => ?_
    exact .eat h₄ (.leave _) fun c₅ h₅ hlt₅ => .againWith (h₅.near (by omega)).isBeyond _

/-- The loop over the suffixes of an operand also keeps the operand that it has read. -/
theorem Expr.parseSuffixes_advances (hi : Inner.Rel .exact (Reached c) k inner inner) (hk : c.ahead.length < k) (e : Expr) :
    Advances Prod.snd (fun n (s : Expr × Cursor) => Expr.parseSuffixes inner n s.1 s.2) (e, c) := by
  have h := alike_reached c
  simp only [Advances, Expr.parseSuffixes]
  refine .bind (parseSuffix_rel hi rfl h (by omega)) ?_
  rintro _ (⟨rfl, -⟩ | ⟨e₁, e₂, c₁, d₁, rfl, hd, -, hnear⟩)
  · exact .leave _
  · obtain rfl : c₁ = d₁ := (Prod.mk.inj (Option.some.inj hd)).2
    exact .again (s := (e₁, c₁)) hnear.isBeyond

theorem VariableDecl.parseRest_advances (hi : Inner.Rel .exact (Reached c) k inner inner) (hk : c.ahead.length < k)
    (exported : ExportKind) : Advances id (VariableDecl.parseRest inner exported) c := by
  have h := alike_reached c
  simp only [Advances, id, VariableDecl.parseRest]
  refine .bindLike (VariableDecl.parse_rel hi exported h (by omega)) fun v c₁ h₁ hlt₁ => ?_
  exact .eat h₁ (.leave _) fun c₂ h₂ hlt₂ => .againWith (h₂.near (by omega)).isBeyond _

theorem InterfaceDecl.parseBases_advances (c : Cursor) : Advances id InterfaceDecl.parseBases c := by
  have h := alike_reached c
  simp only [Advances, id, InterfaceDecl.parseBases]
  refine .bindPair h.qualifiedName fun name c₁ h₁ hlt₁ => ?_
  refine .bindNear h₁.skipAnglesIfNext fun c₂ h₂ hlt₂ => ?_
  exact .eat h₂ (.leave _) fun c₃ h₃ hlt₃ => .againWith (h₃.near (by omega)).isBeyond _

theorem EnumDecl.parseMembers_advances (c : Cursor) : Advances id EnumDecl.parseMembers c := by
  have h := alike_reached c
  simp only [Advances, id, EnumDecl.parseMembers]
  refine .ite (fun _ => .leave _) fun _ => .bindPair h.propertyKey fun key c₁ h₁ hlt₁ => ?_
  cases key with
  | none => exact .fails _ _
  | some key =>
    refine .bind (EnumMember.value?_rel h₁) ?_
    rintro ⟨value, c₂⟩ ⟨-, h₂, hlt₂⟩
    exact .eat h₂ (.leave _) fun c₃ h₃ hlt₃ => .againWith (h₃.near (by omega)).isBeyond _

theorem ExportSpecifier.parseRest_advances (c : Cursor) : Advances id ExportSpecifier.parseRest c := by
  have h := alike_reached c
  simp only [Advances, id, ExportSpecifier.parseRest]
  obtain ⟨h₁, hlt₁⟩ := ExportSpecifier.skipType_near h
  refine .ite (fun _ => .leave _) fun _ => .bindPair (ExportSpecifier.parseName_rel h₁) fun localName c₂ h₂ hlt₂ => ?_
  refine .bindPair (ExportSpecifier.parseRename_rel localName h₂) fun exportedName c₃ h₃ hlt₃ => ?_
  exact .eat h₃ (.leave _) fun c₄ h₄ hlt₄ => .againWith (h₄.near (by omega)).isBeyond _

theorem Item.parseAll_advances (hi : Inner.Rel .exact (Reached c) k inner inner) (hk : c.ahead.length < k) :
    Advances id (Item.parseAll inner) c := by
  have h := alike_reached c
  simp only [Advances, id, Item.parseAll]
  refine .ite (fun _ => .leave _) fun hend => ?_
  have hne : c.ahead ≠ [] := by simpa [Cursor.atEnd] using hend
  refine .eatFirst h (fun c₁ h₁ hlt₁ => .again (s := c₁) (h₁.near hlt₁).isBeyond) ?_
  exact .bindLike (Item.parse_rel hi h (by omega) hne) fun here c₁ h₁ hlt₁ => .againWith (h₁.near hlt₁).isBeyond _

end Loops

/-! ## Every parse ends -/

namespace Inner

/-- Each loop over parsers for what stands inside leaves it or goes on beyond `c`, in a round that begins at `c`. -/
structure LoopsAdvance (inner : Inner) (c : Cursor) : Prop where
  items : Advances id (Item.parseAll inner) c
  bindings : ∀ exported, Advances id (VariableDecl.parseRest inner exported) c
  bases : Advances id InterfaceDecl.parseBases c
  enumMembers : Advances id EnumDecl.parseMembers c
  specifiers : Advances id ExportSpecifier.parseRest c
  params : Advances id (Param.parseRest inner) c
  patternProps : Advances id (Pattern.parseProps inner) c
  members : Advances id (TypeExpr.parseMembers inner) c
  typeArgs : Advances id (TypeExpr.parseArgs inner) c
  alternatives : Advances id (TypeExpr.parseOperands "|" (TypeExpr.parseIntersection inner)) c
  intersected : Advances id (TypeExpr.parseOperands "&" (TypeExpr.parsePostfix inner)) c
  typeSuffixes : ∀ t, Advances Prod.snd (fun n (s : TypeExpr × Cursor) => TypeExpr.parseSuffixes s.1 n s.2) (t, c)
  args : Advances id (Expr.parseArgsRest inner) c
  props : Advances id (Expr.parseProps inner) c
  suffixes : ∀ e, Advances Prod.snd (fun n (s : Expr × Cursor) => Expr.parseSuffixes inner n s.1 s.2) (e, c)

theorem Rel.loopsAdvance {inner : Inner} {c : Cursor} {k : Nat} (hi : Inner.Rel .exact (Reached c) k inner inner)
    (hk : c.ahead.length < k) : inner.LoopsAdvance c where
  items := Item.parseAll_advances hi hk
  bindings := VariableDecl.parseRest_advances hi hk
  bases := InterfaceDecl.parseBases_advances c
  enumMembers := EnumDecl.parseMembers_advances c
  specifiers := ExportSpecifier.parseRest_advances c
  params := Param.parseRest_advances hi hk
  patternProps := Pattern.parseProps_advances hi hk
  members := TypeExpr.parseMembers_advances hi hk
  typeArgs := TypeExpr.parseArgs_advances hi hk
  alternatives := TypeExpr.parseOperands_advances (TypeExpr.parseIntersection_rel hi) hk
  intersected := TypeExpr.parseOperands_advances (TypeExpr.parsePostfix_rel hi) hk
  typeSuffixes := fun t => TypeExpr.parseSuffixes_advances t c
  args := Expr.parseArgsRest_advances hi hk
  props := Expr.parseProps_advances hi hk
  suffixes := Expr.parseSuffixes_advances hi hk

/-- All parsers of both records have the same outcome at `c`, and no count runs out in them. -/
structure SameInTime (i j : Inner) (c : Cursor) : Prop where
  type : i.type c = j.type c ∧ (i.type c).InTime
  postfixType : i.postfixType c = j.postfixType c ∧ (i.postfixType c).InTime
  primaryType : i.primaryType c = j.primaryType c ∧ (i.primaryType c).InTime
  expr : i.expr c = j.expr c ∧ (i.expr c).InTime
  postfixExpr : i.postfixExpr c = j.postfixExpr c ∧ (i.postfixExpr c).InTime
  primaryExpr : i.primaryExpr c = j.primaryExpr c ∧ (i.primaryExpr c).InTime

theorem Rel.sameInTime {i j : Inner} {c : Cursor} {k : Nat} (hi : Inner.Rel .exact Eq k i j) (hk : c.ahead.length < k) :
    i.SameInTime j c := by
  have h : Alike .exact Eq c c := .self fun _ => rfl
  have settled {α : Type} [Reworded α] {m : Nat} {x y : Parsed (α × Cursor)} (hrel : Parsed.Rel Eq (NearLike .exact Eq m) x y) :
      x = y ∧ x.InTime := ⟨hrel.eq_of_places, hrel.inTime⟩
  exact {
    type := settled (hi.type h hk)
    postfixType := settled (hi.postfixType h hk)
    primaryType := settled (hi.primaryType h hk)
    expr := settled (hi.expr h hk)
    postfixExpr := settled (hi.postfixExpr h hk)
    primaryExpr := settled (hi.primaryExpr h hk) }

end Inner

/-- **Every parse ends.** No count of levels or rounds runs out in it, and any that are larger than the count of tokens
give the same module or error. Wherever the parsers stand, as many levels as there are tokens left decide what they do,
every round of a loop leaves it or goes on beyond where it began, and so does an item that is read. -/
theorem Module.ofSource_ends {source : String} {ts : List Token} (h : tokenize source = .ok ts) :
    (ofSource source).InTime ∧
    (∀ depth rounds, ts.length ≤ depth → ts.length < rounds →
      (Item.parseAll (.ofDepth depth) rounds (.start ts)).map (⟨·⟩) = ofSource source) ∧
    ∀ depth c, c.ahead.length < depth →
      (∀ more, c.ahead.length < more → (Inner.ofDepth depth).SameInTime (.ofDepth more) c) ∧
      (Inner.ofDepth depth).LoopsAdvance c ∧
      ∀ items d, c.ahead ≠ [] → Item.parse (.ofDepth depth) c = .ok (items, d) → d.IsBeyond c := by
  have hsource : ofSource source = ofTokens ts := by
    rw [ofSource, h]
    rfl
  rw [hsource]
  refine ⟨?_, fun depth rounds hdepth hrounds => ?_, fun depth c hc => ⟨fun more hmore => ?_, ?_, fun items d hne hitems => ?_⟩⟩
  · have halike : Alike .exact (Reached (.start ts)) (.start ts) (.start ts) := alike_reached _
    have hitems := Item.parseAll_rel (Inner.ofDepth_rel (Nat.le_succ ts.length) (Nat.le_succ ts.length)) halike
      (Nat.le_refl _) (Nat.lt_succ_self ts.length) (Nat.lt_succ_self ts.length)
    exact (hitems.map (f := Module.mk) (g := Module.mk) (S := fun _ _ => True) fun _ _ _ => trivial).inTime
  · have halike : Alike .exact SameFaults (.start ts) (.start ts) := alike_of_face rfl rfl
    rw [ofTokens, Item.parseAll_congr halike hdepth (Nat.le_succ ts.length) hrounds (Nat.lt_succ_self ts.length)]
  · exact (Inner.ofDepth_rel (k := c.ahead.length + 1) hc hmore).sameInTime (Nat.lt_succ_self _)
  · exact (Inner.ofDepth_rel (Nat.le_refl depth) (Nat.le_refl depth)).loopsAdvance hc
  · have hi : Inner.Rel .exact (Reached c) depth (.ofDepth depth) (.ofDepth depth) :=
      Inner.ofDepth_rel (Nat.le_refl depth) (Nat.le_refl depth)
    exact ((Item.parse_rel hi (alike_reached c) (Nat.le_of_lt hc) hne).near hitems).isBeyond

/-- A source in which a parenthesis stays open. -/
def openParenthesis : String := "type T = A(1"

theorem Module.ofSource_ends_openParenthesis : ∃ ts, tokenize openParenthesis = .ok ts ∧ ts.length = 6 ∧
    (Item.parseAll (.ofDepth 6) 7 (.start ts)).map (⟨·⟩) = ofSource openParenthesis := by
  have hlength : (tokenize openParenthesis).map List.length = .ok 6 := by rfl
  cases hts : tokenize openParenthesis with
  | error e =>
    rw [hts] at hlength
    cases hlength
  | ok ts =>
    rw [hts] at hlength
    obtain hlength : ts.length = 6 := Except.ok.inj hlength
    exact ⟨ts, rfl, hlength, (ofSource_ends hts).2.1 6 7 (by omega) (by omega)⟩

end AppBundler
