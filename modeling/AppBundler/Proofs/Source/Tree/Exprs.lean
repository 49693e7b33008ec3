import AppBundler.Source.Tree.Exprs
import AppBundler.Proofs.Source.Tree.Types
/-!
# Expressions, with enough levels

Expressions are read in the same way at places that are alike, over parsers that are related for what stands inside
them. So the parsers of two depths do the same as long as fewer tokens are left than either has levels.
-/

namespace AppBundler

namespace Expr

open Cursor

variable {L : Likeness} {P : Cursor → Cursor → Prop} {k n m : Nat} {i j : Inner} {c d : Cursor}

/-- Readers that may find nothing find the same on both sides. -/
def FoundNear (L : Likeness) (P : Cursor → Cursor → Prop) (k : Nat) {α : Type} [Reworded α]
    (x y : Option (α × Cursor)) : Prop :=
  x = none ∧ y = none ∨ ∃ a b c d, x = some (a, c) ∧ y = some (b, d) ∧ reword L.see a = reword L.see b ∧ Near L P k c d

/-! ## Arrow functions -/

theorem skipArrowBody_rel (h : Alike L P c d) :
    Parsed.Rel P (Near L P (c.ahead.length + 1)) (skipArrowBody c) (skipArrowBody d) := by
  simp only [skipArrowBody, h.nextIs]
  exact rel_ite (fun _ => h.skipGroup.mono fun _ _ hnear => hnear.mono (Nat.le_succ _)) fun _ => .ok h.skipExpr

theorem arrowHead_rel (hi : Inner.Rel L P k i j) (h : Alike L P c d) (hk : c.ahead.length ≤ k) :
    Parsed.Rel P (NearLike L P c.ahead.length) (arrowHead i c) (arrowHead j d) := by
  refine bindLike (Param.parseList_rel hi h hk) fun ps ps' c₁ d₁ hps h₁ hlt₁ => ?_
  refine bindLike (hi.annotation? h₁ (by omega)) fun _ _ c₂ d₂ _ h₂ hlt₂ => ?_
  dsimp only
  rw [h₂.nextIs, h₂.newlineNext]
  exact rel_ite (fun _ => .ok ⟨hps, h₂.near (by omega)⟩) fun _ => h₂.fails _

/-- An arrow function is found on both sides or on neither. -/
theorem arrow?_rel (hi : Inner.Rel L P k i j) (isAsync : Bool) (h : Alike L P c d) (hk : c.ahead.length ≤ k) :
    Parsed.Rel P (FoundNear L P c.ahead.length) (arrow? i isAsync c) (arrow? j isAsync d) := by
  have hhead := arrowHead_rel hi h hk
  unfold arrow?
  generalize arrowHead i c = x at hhead
  generalize arrowHead j d = y at hhead
  cases hhead with
  | error he => exact .ok (Or.inl ⟨rfl, rfl⟩)
  | @ok a b hab =>
    obtain ⟨ps, c₁⟩ := a
    obtain ⟨ps', d₁⟩ := b
    obtain ⟨hps, h₁, hlt₁⟩ := hab
    dsimp only at hps h₁ hlt₁ ⊢
    refine bindNear (h₁.expect _) fun c₂ d₂ h₂ hlt₂ => ?_
    refine bindNear (skipArrowBody_rel h₂) fun c₃ d₃ h₃ hlt₃ => ?_
    exact .ok (Or.inr ⟨_, _, c₃, d₃, rfl, rfl, by rw [reword_sig, reword_sig, hps], h₃.near (by omega)⟩)

theorem singleArrow_rel (isAsync : Bool) (h : Alike L P c d) :
    Parsed.Rel P (NearLike L P c.ahead.length) (singleArrow isAsync c) (singleArrow isAsync d) := by
  refine bindPair h.identifier fun name c₁ d₁ h₁ hlt₁ => ?_
  refine bindNear (h₁.expect _) fun c₂ d₂ h₂ hlt₂ => ?_
  refine bindNear (skipArrowBody_rel h₂) fun c₃ d₃ h₃ hlt₃ => ?_
  exact .ok ⟨rfl, h₃.near (by omega)⟩

/-! ## Arguments and object literals -/

theorem parseArg_rel (hi : Inner.Rel L P k i j) (h : Alike L P c d) (hk : c.ahead.length < k) :
    Parsed.Rel P (NearLike L P (c.ahead.length + 1)) (parseArg i c) (parseArg j d) := by
  unfold parseArg
  rcases h.eat? "..." with ⟨hc, hd⟩ | ⟨c₁, d₁, hc, hd, h₁, hlt₁⟩ <;> simp only [hc, hd]
  · exact hi.expr h hk
  · exact .ok ⟨rfl, h₁.skipExpr.mono (by omega)⟩

/-- Every argument but the last one ends with a comma, so the rounds never run out. -/
theorem parseArgsRest_rel (hi : Inner.Rel L P k i j) (h : Alike L P c d) (hk : c.ahead.length < k)
    (hn : c.ahead.length < n) (hm : c.ahead.length < m) :
    Parsed.Rel P (NearLike L P (c.ahead.length + 1)) (parseArgsRest i n c) (parseArgsRest j m d) := by
  induction n generalizing m c d with
  | zero => omega
  | succ n ih =>
    obtain ⟨m, rfl⟩ : ∃ p, m = p + 1 := ⟨m - 1, by omega⟩
    simp only [parseArgsRest, h.nextIs, h.atEnd]
    refine rel_ite (fun _ => .ok ⟨rfl, h.near (Nat.lt_succ_self _)⟩) fun _ => rel_ite (fun _ => h.fails _) fun _ => ?_
    refine bindLike (parseArg_rel hi h hk) fun e e' c₁ d₁ he h₁ hlt₁ => ?_
    rcases h₁.eat? "," with ⟨hc, hd⟩ | ⟨c₂, d₂, hc, hd, h₂, hlt₂⟩ <;> simp only [hc, hd]
    · exact .ok ⟨congrArg ([·]) he, h₁, hlt₁⟩
    · refine bindLike (ih h₂ (by omega) (by omega) (by omega)) fun more more' c₃ d₃ hmore h₃ hlt₃ => ?_
      exact .ok ⟨congrArg₂ List.cons he hmore, h₃.near (by omega)⟩

theorem parseArgs_rel (hi : Inner.Rel L P k i j) (h : Alike L P c d) (hk : c.ahead.length ≤ k) :
    Parsed.Rel P (NearLike L P c.ahead.length) (parseArgs i c) (parseArgs j d) := by
  have hrounds := hi.rounds
  have hrounds' := hi.rounds'
  refine bindNear (h.expect _) fun c₁ d₁ h₁ hlt₁ => ?_
  refine bindLike (parseArgsRest_rel hi h₁ (by omega) (by omega) (by omega)) fun es es' c₂ d₂ hes h₂ hlt₂ => ?_
  refine bindNear (h₂.expect _) fun c₃ d₃ h₃ hlt₃ => ?_
  exact .ok ⟨hes, h₃.near (by omega)⟩

theorem isModifier_eq (h : Alike L P c d) : isModifier d = isModifier c :=
  h.any_peekAt? 1 fun _ _ hlike => by rw [hlike.isPunctOf_congr]

theorem parsePropValue_rel (hi : Inner.Rel L P k i j) (isAsync : Bool) (key : Option String) (h : Alike L P c d)
    (hk : c.ahead.length ≤ k) :
    Parsed.Rel P (NearLike L P (c.ahead.length + 1)) (parsePropValue i isAsync key c) (parsePropValue j isAsync key d) := by
  unfold parsePropValue
  rcases h.eat? ":" with ⟨hc, hd⟩ | ⟨c₁, d₁, hc, hd, h₁, hlt₁⟩ <;> simp only [hc, hd, h.nextIs]
  · refine rel_ite (fun _ => ?_) fun _ => ?_
    · refine bindLike (FunctionSig.parse_rel hi isAsync h hk) fun sig sig' c₁ d₁ hsig h₁ hlt₁ => ?_
      exact .ok ⟨congrArg function hsig, h₁.near (by omega)⟩
    · cases key with
      | none => exact .ok ⟨rfl, h.near (Nat.lt_succ_self _)⟩
      | some key => exact .ok ⟨rfl, h.near (Nat.lt_succ_self _)⟩
  · exact widenLike (hi.expr h₁ (by omega)) (by omega)

/-- Every property takes a token, so the rounds never run out. -/
theorem parseProps_rel (hi : Inner.Rel L P k i j) (h : Alike L P c d) (hk : c.ahead.length ≤ k)
    (hn : c.ahead.length < n) (hm : c.ahead.length < m) :
    Parsed.Rel P (NearLike L P (c.ahead.length + 1)) (parseProps i n c) (parseProps j m d) := by
  induction n generalizing m c d with
  | zero => omega
  | succ n ih =>
    obtain ⟨m, rfl⟩ : ∃ p, m = p + 1 := ⟨m - 1, by omega⟩
    simp only [parseProps, h.nextIs, h.atEnd, h.nextIsIdent, isModifier_eq h]
    refine rel_ite (fun _ => .ok ⟨rfl, h.near (Nat.lt_succ_self _)⟩) fun _ => rel_ite (fun _ => h.fails _) fun _ => ?_
    rcases h.eat? "..." with ⟨hc, hd⟩ | ⟨c₁, d₁, hc, hd, h₁, hlt₁⟩ <;> simp only [hc, hd]
    · refine rel_ite (fun _ => ?_) fun _ => ?_
      · have hle := length_next_le (c := c)
        refine bindPair h.next.propertyKey fun _ c₁ d₁ h₁ hlt₁ => ?_
        refine bindLike (FunctionSig.parse_rel hi false h₁ (by omega)) fun _ _ c₂ d₂ _ h₂ hlt₂ => ?_
        obtain ⟨h₃, hlt₃⟩ := h₂.skip ","
        dsimp only
        exact widenLike (ih h₃ (by omega) (by omega) (by omega)) (by omega)
      · generalize (c.nextIsIdent "async" && isModifier c) = isAsync
        obtain ⟨h₁, hlt₁⟩ : Near L P (c.ahead.length + 1) (if isAsync then c.next else c) (if isAsync then d.next else d) :=
          rel_ite (fun _ => ⟨h.next, Nat.lt_succ_of_le length_next_le⟩) fun _ => h.near (Nat.lt_succ_self _)
        obtain ⟨h₂, hlt₂⟩ := h₁.skip "*"
        refine bindPair h₂.propertyKey fun key c₃ d₃ h₃ hlt₃ => ?_
        refine bindLike (parsePropValue_rel hi isAsync key h₃ (by omega)) fun value value' c₄ d₄ hvalue h₄ hlt₄ => ?_
        have hhere : reword L.see (key.toList.map fun k => (k, value)) = reword L.see (key.toList.map fun k => (k, value')) := by
          cases key with
          | none => rfl
          | some k => exact congrArg (fun e => [(k, e)]) hvalue
        rcases h₄.eat? "," with ⟨hc, hd⟩ | ⟨c₅, d₅, hc, hd, h₅, hlt₅⟩ <;> simp only [hc, hd]
        · exact .ok ⟨hhere, h₄.near (by omega)⟩
        · refine bindLike (ih h₅ (by omega) (by omega) (by omega)) fun more more' c₆ d₆ hmore h₆ hlt₆ => ?_
          exact .ok ⟨by rw [reword_append, reword_append, hhere, hmore], h₆.near (by omega)⟩
    · obtain ⟨h₂, hlt₂⟩ := h₁.skipExpr
      obtain ⟨h₃, hlt₃⟩ := h₂.skip ","
      exact widenLike (ih h₃ (by omega) (by omega) (by omega)) (by omega)

theorem parseObject_rel (hi : Inner.Rel L P k i j) (h : Alike L P c d) (hk : c.ahead.length ≤ k) :
    Parsed.Rel P (NearLike L P c.ahead.length) (parseObject i c) (parseObject j d) := by
  have hrounds := hi.rounds
  have hrounds' := hi.rounds'
  refine bindNear (h.expect _) fun c₁ d₁ h₁ hlt₁ => ?_
  refine bindLike (parseProps_rel hi h₁ (by omega) (by omega) (by omega)) fun props props' c₂ d₂ hprops h₂ hlt₂ => ?_
  refine bindNear (h₂.expect _) fun c₃ d₃ h₃ hlt₃ => ?_
  exact .ok ⟨by rw [reword_exprObject, reword_exprObject, hprops], h₃.near (by omega)⟩

/-! ## Operands -/

theorem parseFunction_rel (hi : Inner.Rel L P k i j) (isAsync : Bool) (h : Alike L P c d) (hk : c.ahead.length ≤ k) :
    Parsed.Rel P (NearLike L P c.ahead.length) (parseFunction i isAsync c) (parseFunction j isAsync d) := by
  obtain ⟨h₁, hlt₁⟩ := h.skip "*"
  simp only [parseFunction, h₁.nextIsKind]
  have hname : Near L P (c.ahead.length + 1)
      (if (c.skip "*").nextIsKind .ident then (c.skip "*").next else c.skip "*")
      (if (c.skip "*").nextIsKind .ident then (d.skip "*").next else d.skip "*") :=
    rel_ite (fun _ => ⟨h₁.next, Nat.lt_of_le_of_lt length_next_le hlt₁⟩) fun _ => h₁.near hlt₁
  obtain ⟨h₂, hlt₂⟩ := hname
  refine bindLike (FunctionSig.parse_rel hi isAsync h₂ (by omega)) fun sig sig' c₃ d₃ hsig h₃ hlt₃ => ?_
  exact .ok ⟨congrArg function hsig, h₃.near (by omega)⟩

theorem parseAsync_rel (hi : Inner.Rel L P k i j) (h : Alike L P c d) (hk : c.ahead.length ≤ k) (hne : c.ahead ≠ []) :
    Parsed.Rel P (NearLike L P c.ahead.length) (parseAsync i c) (parseAsync j d) := by
  obtain ⟨h₁, hlt₁⟩ := h.next_near hne
  have hle := length_next_le (c := c.next)
  simp only [parseAsync, h.nthIsIdent, h.nthIsKind, h.nthIs]
  refine rel_ite (fun _ => widenLike (parseFunction_rel hi true h₁.next (by omega)) (by omega)) fun _ => ?_
  refine rel_ite (fun _ => widenLike (singleArrow_rel true h₁) (by omega)) fun _ => ?_
  refine rel_ite (fun _ => ?_) fun _ => .ok ⟨rfl, h₁, hlt₁⟩
  refine bindNear h₁.skipAnglesIfNext fun c₂ d₂ h₂ hlt₂ => ?_
  refine (arrow?_rel hi true h₂ (by omega)).bind ?_
  rintro _ _ (⟨rfl, rfl⟩ | ⟨sig, sig', c₃, d₃, rfl, rfl, hsig, h₃, hlt₃⟩)
  · exact .ok ⟨rfl, h₁, hlt₁⟩
  · exact .ok ⟨congrArg function hsig, h₃.near (by omega)⟩

theorem skipNew_rel (hi : Inner.Rel L P k i j) (h : Alike L P c d) (hk : c.ahead.length < k) :
    Parsed.Rel P (Near L P (c.ahead.length + 1)) (skipNew i c) (skipNew j d) := by
  refine bindLike (hi.primaryExpr h hk) fun _ _ c₁ d₁ _ h₁ hlt₁ => ?_
  have h₁ : Alike L P ⟨c₁.before, c₁.ahead⟩ ⟨d₁.before, d₁.ahead⟩ := h₁
  obtain ⟨-, h₂, hlt₂⟩ := h₁.nameParts
  refine bindNear h₂.skipAnglesIfNext fun c₃ d₃ h₃ hlt₃ => ?_
  rw [h₃.nextIs]
  refine rel_ite (fun _ => ?_) fun _ => .ok (h₃.near (by omega))
  exact h₃.skipGroup.mono fun _ _ hnear => hnear.mono (by omega)

/-- A word is passed, so what follows it may be read one level below. -/
theorem parseWord_rel (hi : Inner.Rel L P k i j) (name : String) (h : Alike L P c d) (hk : c.ahead.length ≤ k)
    (hne : c.ahead ≠ []) : Parsed.Rel P (NearLike L P c.ahead.length) (parseWord i name c) (parseWord j name d) := by
  obtain ⟨h₁, hlt₁⟩ := h.next_near hne
  have hline : (d.peekAt? 1).any (·.newlineBefore) = (c.peekAt? 1).any (·.newlineBefore) :=
    h.any_peekAt? 1 fun _ _ hlike => hlike.newlineBefore_congr
  have harrow : (d.peekAt? 1).any (fun t => t.isPunct "=>" && !t.newlineBefore) =
      (c.peekAt? 1).any fun t => t.isPunct "=>" && !t.newlineBefore :=
    h.any_peekAt? 1 fun _ _ hlike => by rw [hlike.isPunct_congr, hlike.newlineBefore_congr]
  simp only [parseWord, hline, harrow]
  refine rel_ite (fun _ => parseAsync_rel hi h hk hne) fun _ => ?_
  refine rel_ite (fun _ => widenLike (parseFunction_rel hi false h₁ (by omega)) (by omega)) fun _ => ?_
  refine rel_ite (fun _ => .ok ⟨rfl, h₁, hlt₁⟩) fun _ => rel_ite (fun _ => .ok ⟨rfl, h₁, hlt₁⟩) fun _ => ?_
  refine rel_ite (fun _ => ?_) fun _ => rel_ite (fun _ => ?_) fun _ => rel_ite (fun _ => ?_) fun _ => ?_
  · exact bindNear (skipNew_rel hi h₁ (by omega)) fun c₂ d₂ h₂ hlt₂ => .ok ⟨rfl, h₂.near (by omega)⟩
  · exact bindLike (hi.postfixExpr h₁ (by omega)) fun _ _ c₂ d₂ _ h₂ hlt₂ => .ok ⟨rfl, h₂.near (by omega)⟩
  · exact bindNear h.skipClass fun c₂ d₂ h₂ hlt₂ => .ok ⟨rfl, h₂, hlt₂⟩
  · exact rel_ite (fun _ => singleArrow_rel false h) fun _ => .ok ⟨rfl, h₁, hlt₁⟩

theorem parsePunct_rel (hi : Inner.Rel L P k i j) (text : String) (h : Alike L P c d) (hk : c.ahead.length ≤ k)
    (hne : c.ahead ≠ []) : Parsed.Rel P (NearLike L P c.ahead.length) (parsePunct i text c) (parsePunct j text d) := by
  obtain ⟨h₁, hlt₁⟩ := h.next_near hne
  have hnumber : c.nthIsKind 1 .number = true → (d.peekAt? 1).elim "" (·.text) = (c.peekAt? 1).elim "" (·.text) := by
    have hrel := h.peekAt? 1
    rw [Cursor.nthIsKind]
    generalize c.peekAt? 1 = t, d.peekAt? 1 = u at hrel ⊢
    cases hrel with
    | none => exact fun _ => rfl
    | some hlike =>
      intro hkind
      exact (hlike.flat (by rw [show _ = _ from of_decide_eq_true hkind]; rfl)).symm
  simp only [parsePunct, h.nthIsKind]
  refine rel_ite (fun _ => ?_) fun _ => rel_ite (fun _ => ?_) fun _ => ?_
  · refine (arrow?_rel hi false h hk).bind ?_
    rintro _ _ (⟨rfl, rfl⟩ | ⟨sig, sig', c₂, d₂, rfl, rfl, hsig, h₂, hlt₂⟩)
    · refine bindLike (hi.expr h₁ (by omega)) fun e e' c₂ d₂ he h₂ hlt₂ => ?_
      exact bindNear (h₂.expect _) fun c₃ d₃ h₃ hlt₃ => .ok ⟨he, h₃.near (by omega)⟩
    · exact .ok ⟨congrArg function hsig, h₂, hlt₂⟩
  · refine bindNear h.skipAngles fun c₂ d₂ h₂ hlt₂ => ?_
    refine (arrow?_rel hi false h₂ (by omega)).bind ?_
    rintro _ _ (⟨rfl, rfl⟩ | ⟨sig, sig', c₃, d₃, rfl, rfl, hsig, h₃, hlt₃⟩)
    · exact h₂.fails _
    · exact .ok ⟨congrArg function hsig, h₃.near (by omega)⟩
  refine rel_ite (fun _ => parseObject_rel hi h hk) fun _ => rel_ite (fun hminus => ?_) fun _ => ?_
  · rw [hnumber (Bool.and_eq_true_iff.mp hminus).2]
    exact .ok ⟨rfl, h₁.next.near (Nat.lt_of_le_of_lt length_next_le hlt₁)⟩
  refine rel_ite (fun _ => ?_) fun _ => rel_ite (fun _ => ?_) fun _ => h.fails _
  · exact bindNear h.skipGroup fun c₂ d₂ h₂ hlt₂ => .ok ⟨rfl, h₂, hlt₂⟩
  · exact bindLike (hi.postfixExpr h₁ (by omega)) fun _ _ c₂ d₂ _ h₂ hlt₂ => .ok ⟨rfl, h₂.near (by omega)⟩

/-- An operand without suffixes takes a token. -/
theorem parsePrimary_rel (hi : Inner.Rel L P k i j) (h : Alike L P c d) (hk : c.ahead.length ≤ k) :
    Parsed.Rel P (NearLike L P c.ahead.length) (parsePrimary i c) (parsePrimary j d) := by
  rcases h.cases with ⟨hc, hd⟩ | ⟨t, r, u, s, hc, hd, hlike⟩
  · simp only [parsePrimary, peek?, hc, hd, List.head?_nil]
    exact h.fails _
  · have hne : c.ahead ≠ [] := by simp [hc]
    have hnext := h.next_near hne
    simp only [parsePrimary, peek?, hc, hd, List.head?_cons, ← hlike.kind, ← hlike.stringValue?_congr]
    rw [← hc]
    cases hkind : t.kind with
    | string => exact .ok ⟨rfl, hnext⟩
    | number =>
      rw [← hlike.flat (by rw [hkind]; rfl)]
      exact .ok ⟨rfl, hnext⟩
    | template =>
      have htemplate := hlike.template hkind
      generalize Literal.template? t.text = s, Literal.template? u.text = s' at htemplate ⊢
      cases s with
      | none =>
        rw [Option.map_eq_none_iff.mp htemplate.symm]
        exact .ok ⟨rfl, hnext⟩
      | some s =>
        obtain ⟨s', rfl, hs⟩ := Option.map_eq_some_iff.mp htemplate.symm
        exact .ok ⟨congrArg (fun s => Expr.literal (.string s)) hs.symm, hnext⟩
    | regex => exact .ok ⟨rfl, hnext⟩
    | jsx => exact .ok ⟨rfl, hnext⟩
    | punct =>
      rw [← hlike.flat (by rw [hkind]; rfl)]
      exact parsePunct_rel hi _ h hk hne
    | ident =>
      rw [← hlike.flat (by rw [hkind]; rfl)]
      exact parseWord_rel hi _ h hk hne

/-! ## Suffixes -/

theorem skipTypeArgs?_cases (h : Alike L P c d) : skipTypeArgs? c = none ∧ skipTypeArgs? d = none ∨
    ∃ c' d', skipTypeArgs? c = some c' ∧ skipTypeArgs? d = some d' ∧ Near L P c.ahead.length c' d' := by
  have hangles := h.skipAngles
  unfold skipTypeArgs?
  generalize c.skipAngles = x at hangles
  generalize d.skipAngles = y at hangles
  cases hangles with
  | error he => exact Or.inl ⟨rfl, rfl⟩
  | @ok c' d' hnear =>
    dsimp only
    rw [hnear.1.nextIs]
    by_cases hcall : c'.nextIs "(" = true
    · rw [if_pos hcall, if_pos hcall]
      exact Or.inr ⟨c', d', rfl, rfl, hnear⟩
    · rw [if_neg hcall, if_neg hcall]
      exact Or.inl ⟨rfl, rfl⟩

theorem takesTypeArgs_reword (f : String → String) (e : Expr) : takesTypeArgs (reword f e) = takesTypeArgs e := by
  cases e <;> simp [takesTypeArgs] <;> rfl

/-- A suffix is found on both sides or on neither, and takes a token. -/
theorem parseSuffix_rel {e e' : Expr} (hi : Inner.Rel L P k i j) (he : reword L.see e = reword L.see e')
    (h : Alike L P c d) (hk : c.ahead.length ≤ k) :
    Parsed.Rel P (FoundNear L P c.ahead.length) (parseSuffix i e c) (parseSuffix j e' d) := by
  have found {a b : Expr} {c' d' : Cursor} (hab : reword L.see a = reword L.see b) (h' : Alike L P c' d')
      (hlt : c'.ahead.length < c.ahead.length) :
      Parsed.Rel P (FoundNear L P c.ahead.length) (.ok (some (a, c'))) (.ok (some (b, d'))) :=
    .ok (Or.inr ⟨a, b, c', d', rfl, rfl, hab, h', hlt⟩)
  have hcall {args args' : List Expr} (hargs : reword L.see args = reword L.see args') :
      reword L.see (e.call args) = reword L.see (e'.call args') := by rw [reword_call, reword_call, he, hargs]
  have htakes : takesTypeArgs e = takesTypeArgs e' := by rw [← takesTypeArgs_reword L.see, he, takesTypeArgs_reword]
  -- each test below finds a token, so what is passed makes the rest shorter
  have passed (hne : c.ahead ≠ []) : Near L P c.ahead.length c.next d.next := h.next_near hne
  simp only [parseSuffix, h.nextIs, h.newlineNext, h.nextIsIdent, h.nextIsKind, htakes]
  refine rel_ite (fun hdot => ?_) fun _ => rel_ite (fun _ => ?_) fun _ => rel_ite (fun _ => ?_) fun _ => ?_
  · obtain ⟨h₁, hlt₁⟩ := passed (by
      rcases Bool.or_eq_true_iff.mp hdot with hdot | hdot <;> exact ne_nil_of_nextIs hdot)
    simp only [h₁.nextIs]
    refine rel_ite (fun _ => ?_) fun _ => rel_ite (fun _ => ?_) fun _ => ?_
    · exact bindLike (parseArgs_rel hi h₁ (by omega)) fun args args' c₂ d₂ hargs h₂ hlt₂ =>
        found (hcall hargs) h₂ (Nat.lt_trans hlt₂ hlt₁)
    · exact bindNear h₁.skipGroup fun c₂ d₂ h₂ hlt₂ => found rfl h₂ (by omega)
    · exact bindPair h₁.identifier fun property c₂ d₂ h₂ hlt₂ =>
        found (congrArg (member · property) he) h₂ (Nat.lt_trans hlt₂ hlt₁)
  · exact bindLike (parseArgs_rel hi h hk) fun args args' c₁ d₁ hargs h₁ hlt₁ => found (hcall hargs) h₁ hlt₁
  · exact bindNear h.skipGroup fun c₁ d₁ h₁ hlt₁ => found rfl h₁ hlt₁
  refine rel_ite (fun _ => ?_) fun _ => rel_ite (fun hbang => ?_) fun _ => rel_ite (fun has => ?_) fun _ => ?_
  · rcases skipTypeArgs?_cases h with ⟨hc, hd⟩ | ⟨c₁, d₁, hc, hd, h₁, hlt₁⟩ <;> rw [hc, hd]
    · exact .ok (Or.inl ⟨rfl, rfl⟩)
    · exact found he h₁ hlt₁
  · obtain ⟨h₁, hlt₁⟩ := passed (ne_nil_of_nextIs (Bool.and_eq_true_iff.mp hbang).1)
    exact found he h₁ hlt₁
  · obtain ⟨h₁, hlt₁⟩ := passed (by
      rcases Bool.or_eq_true_iff.mp (Bool.and_eq_true_iff.mp has).1 with has | has <;> exact ne_nil_of_nextIsIdent has)
    rcases h₁.eatIdent? "const" with ⟨hc, hd⟩ | ⟨c₂, d₂, hc, hd, h₂, hlt₂⟩ <;> simp only [hc, hd]
    · exact bindLike (hi.type h₁ (by omega)) fun _ _ c₂ d₂ _ h₂ hlt₂ => found he h₂ (Nat.lt_trans hlt₂ hlt₁)
    · exact found he h₂ (by omega)
  · refine rel_ite (fun htemplate => ?_) fun _ => .ok (Or.inl ⟨rfl, rfl⟩)
    obtain ⟨h₁, hlt₁⟩ := passed (ne_nil_of_nextIsKind (Bool.and_eq_true_iff.mp htemplate).1)
    exact found rfl h₁ hlt₁

theorem parseSuffixes_rel {e e' : Expr} (hi : Inner.Rel L P k i j) (he : reword L.see e = reword L.see e')
    (h : Alike L P c d) (hk : c.ahead.length ≤ k) (hn : c.ahead.length < n) (hm : c.ahead.length < m) :
    Parsed.Rel P (NearLike L P (c.ahead.length + 1)) (parseSuffixes i n e c) (parseSuffixes j m e' d) := by
  induction n generalizing e e' m c d with
  | zero => omega
  | succ n ih =>
    obtain ⟨m, rfl⟩ : ∃ p, m = p + 1 := ⟨m - 1, by omega⟩
    simp only [parseSuffixes]
    refine (parseSuffix_rel hi he h hk).bind ?_
    rintro _ _ (⟨rfl, rfl⟩ | ⟨e₁, e₁', c₁, d₁, rfl, rfl, he₁, h₁, hlt₁⟩)
    · exact .ok ⟨he, h.near (Nat.lt_succ_self _)⟩
    · exact widenLike (ih he₁ h₁ (by omega) (by omega) (by omega)) (by omega)

theorem parsePostfix_rel (hi : Inner.Rel L P k i j) (h : Alike L P c d) (hk : c.ahead.length ≤ k) :
    Parsed.Rel P (NearLike L P c.ahead.length) (parsePostfix i c) (parsePostfix j d) := by
  have hrounds := hi.rounds
  have hrounds' := hi.rounds'
  refine bindLike (parsePrimary_rel hi h hk) fun e e' c₁ d₁ he h₁ hlt₁ => ?_
  exact widenLike (parseSuffixes_rel hi he h₁ (by omega) (by omega) (by omega)) (by omega)

theorem endsAt_eq (h : Alike L P c d) : endsAt d = endsAt c := by
  rcases h.cases with ⟨hc, hd⟩ | ⟨t, r, u, s, hc, hd, hlike⟩
  · simp only [endsAt, peek?, hc, hd, List.head?_nil]
  · simp only [endsAt, peek?, hc, hd, List.head?_cons, endsExpr, ← hlike.kind, ← hlike.isPunctOf_congr, h.atBreak]

/-- **An expression** may take no token at all, since one that cannot be read is passed over. -/
theorem parse_rel (hi : Inner.Rel L P k i j) (h : Alike L P c d) (hk : c.ahead.length ≤ k) :
    Parsed.Rel P (NearLike L P (c.ahead.length + 1)) (parse i c) (parse j d) := by
  have hpostfix := parsePostfix_rel hi h hk
  unfold parse
  generalize parsePostfix i c = x at hpostfix
  generalize parsePostfix j d = y at hpostfix
  cases hpostfix with
  | error he => exact .ok ⟨rfl, h.skipExpr⟩
  | @ok a b hab =>
    obtain ⟨e, c₁⟩ := a
    obtain ⟨e', d₁⟩ := b
    obtain ⟨he, h₁, hlt₁⟩ := hab
    dsimp only at he h₁ hlt₁ ⊢
    rw [endsAt_eq h₁]
    exact rel_ite (fun _ => .ok ⟨he, h₁.near (by omega)⟩) fun _ => .ok ⟨rfl, h₁.skipExpr.mono (by omega)⟩

end Expr

open Cursor in
/-- **Any two depths** that suffice do the same at places that are alike. -/
theorem Inner.ofDepth_rel {L : Likeness} {P : Cursor → Cursor → Prop} {k n m : Nat} (hn : k ≤ n) (hm : k ≤ m) :
    Inner.Rel L P k (.ofDepth n) (.ofDepth m) := by
  induction k generalizing n m with
  | zero => constructor <;> intros <;> omega
  | succ k ih =>
    obtain ⟨n, rfl⟩ : ∃ p, n = p + 1 := ⟨n - 1, by omega⟩
    obtain ⟨m, rfl⟩ : ∃ p, m = p + 1 := ⟨m - 1, by omega⟩
    have hi : Inner.Rel L P k (.ofDepth n) (.ofDepth m) := ih (by omega) (by omega)
    exact {
      rounds := hn
      rounds' := hm
      type := fun h hk => TypeExpr.parse_rel hi h (by omega)
      postfixType := fun h hk => TypeExpr.parsePostfix_rel hi h (by omega)
      primaryType := fun h hk => TypeExpr.parsePrimary_rel hi h (by omega)
      expr := fun h hk => Expr.parse_rel hi h (by omega)
      postfixExpr := fun h hk => Expr.parsePostfix_rel hi h (by omega)
      primaryExpr := fun h hk => Expr.parsePrimary_rel hi h (by omega) }

end AppBundler
