import AppBundler.Source.Tree.Inner
import AppBundler.Source.Tree.Params
import AppBundler.Proofs.Source.Alike
import AppBundler.Proofs.Source.Tree.Rewording
/-!
# Parameters and functions, with enough levels

Parsers for what stands inside are related when they do the same at places that are alike, as long as fewer
than `k` tokens are left there. Every parser over related ones then does the same with up to `k` tokens, since
it takes a token before it hands over; and rounds never run out, since every round takes a token. Parameters are
read in the same way so.
-/

namespace AppBundler

open Cursor

variable {L : Likeness} {P : Cursor → Cursor → Prop} {k n m : Nat} {i j : Inner} {c d : Cursor}

/-! ## Enough levels -/

namespace Cursor

variable {α β : Type} [Reworded α] {R : β → β → Prop} {x y : Parsed (α × Cursor)}

/-- Values are the same but for texts that are kept, of which the same is seen, and the places after them near. -/
def NearLike (L : Likeness) (P : Cursor → Cursor → Prop) (k : Nat) (x y : α × Cursor) : Prop :=
  reword L.see x.1 = reword L.see y.1 ∧ Near L P k x.2 y.2

theorem bindLike (h : Parsed.Rel P (NearLike L P k) x y) {f g : α × Cursor → Parsed β}
    (hfg : ∀ a b c d, reword L.see a = reword L.see b → Alike L P c d → c.ahead.length < k →
      Parsed.Rel P R (f (a, c)) (g (b, d))) : Parsed.Rel P R (x >>= f) (y >>= g) :=
  h.bind fun (a, c) (b, d) ⟨hab, hcd, hlt⟩ => hfg a b c d hab hcd hlt

theorem mapLike (h : Parsed.Rel P (NearLike L P k) x y) {f g : α × Cursor → β}
    (hfg : ∀ a b c d, reword L.see a = reword L.see b → Alike L P c d → c.ahead.length < k → R (f (a, c)) (g (b, d))) :
    Parsed.Rel P R (x.map f) (y.map g) :=
  h.map fun (a, c) (b, d) ⟨hab, hcd, hlt⟩ => hfg a b c d hab hcd hlt

theorem widenLike {k' : Nat} (h : Parsed.Rel P (NearLike L P k) x y) (hk : k ≤ k') :
    Parsed.Rel P (NearLike L P k') x y :=
  h.mono fun _ _ hpair => ⟨hpair.1, hpair.2.mono hk⟩

end Cursor

/-- The parsers do the same where fewer than `k` tokens are left. All but that of expressions take a token. -/
structure Inner.Rel (L : Likeness) (P : Cursor → Cursor → Prop) (k : Nat) (i j : Inner) : Prop where
  rounds : k ≤ i.rounds
  rounds' : k ≤ j.rounds
  type : ∀ {c d}, Alike L P c d → c.ahead.length < k →
    Parsed.Rel P (NearLike L P c.ahead.length) (i.type c) (j.type d)
  postfixType : ∀ {c d}, Alike L P c d → c.ahead.length < k →
    Parsed.Rel P (NearLike L P c.ahead.length) (i.postfixType c) (j.postfixType d)
  primaryType : ∀ {c d}, Alike L P c d → c.ahead.length < k →
    Parsed.Rel P (NearLike L P c.ahead.length) (i.primaryType c) (j.primaryType d)
  expr : ∀ {c d}, Alike L P c d → c.ahead.length < k →
    Parsed.Rel P (NearLike L P (c.ahead.length + 1)) (i.expr c) (j.expr d)
  postfixExpr : ∀ {c d}, Alike L P c d → c.ahead.length < k →
    Parsed.Rel P (NearLike L P c.ahead.length) (i.postfixExpr c) (j.postfixExpr d)
  primaryExpr : ∀ {c d}, Alike L P c d → c.ahead.length < k →
    Parsed.Rel P (NearLike L P c.ahead.length) (i.primaryExpr c) (j.primaryExpr d)

namespace Inner.Rel

/-- A type annotation takes no token, or its colon first. -/
theorem annotation? (hi : Inner.Rel L P k i j) (h : Alike L P c d) (hk : c.ahead.length ≤ k) :
    Parsed.Rel P (NearLike L P (c.ahead.length + 1)) (i.annotation? c) (j.annotation? d) := by
  rcases h.eat? ":" with ⟨hc, hd⟩ | ⟨c', d', hc, hd, h', hlt⟩
  · simp only [Inner.annotation?, hc, hd]
    exact .ok ⟨rfl, h.near (Nat.lt_succ_self _)⟩
  · simp only [Inner.annotation?, hc, hd]
    refine (hi.type h' (by omega)).map ?_
    rintro ⟨t, c₁⟩ ⟨t', d₁⟩ ⟨ht, hnear⟩
    exact ⟨congrArg some ht, hnear.mono (by omega)⟩

/-- So does an initializer. -/
theorem initializer? (hi : Inner.Rel L P k i j) (h : Alike L P c d) (hk : c.ahead.length ≤ k) :
    Parsed.Rel P (NearLike L P (c.ahead.length + 1)) (i.initializer? c) (j.initializer? d) := by
  rcases h.eat? "=" with ⟨hc, hd⟩ | ⟨c', d', hc, hd, h', hlt⟩
  · simp only [Inner.initializer?, hc, hd]
    exact .ok ⟨rfl, h.near (Nat.lt_succ_self _)⟩
  · simp only [Inner.initializer?, hc, hd]
    refine (hi.expr h' (by omega)).map ?_
    rintro ⟨e, c₁⟩ ⟨e', d₁⟩ ⟨he, hnear⟩
    exact ⟨congrArg some he, hnear.mono (by omega)⟩

end Inner.Rel

namespace Cursor.Alike

theorem keyAfterNext (h : Alike L P c d) : d.keyAfterNext = c.keyAfterNext := by
  simp only [Cursor.keyAfterNext, h.nthIsKind]

/-- A key takes a token. -/
theorem propertyKey (h : Alike L P c d) : Parsed.Rel P (NearPair L P c.ahead.length) c.propertyKey d.propertyKey := by
  rcases h.cases with ⟨hc, hd⟩ | ⟨t, r, u, s, hc, hd, hlike⟩
  · simp only [Cursor.propertyKey, peek?, hc, hd, List.head?_nil]
    exact h.fails _
  · have hnext : Near L P c.ahead.length c.next d.next := h.next_near (by simp [hc])
    have hgroup : Parsed.Rel P (NearPair L P c.ahead.length)
        (if t.isPunct "[" then do
          let c ← c.skipGroup
          .ok (none, c)
        else .error (c.unexpected .propertyKey) : Parsed (Option String × Cursor))
        (if t.isPunct "[" then do
          let d ← d.skipGroup
          .ok (none, d)
        else .error (d.unexpected .propertyKey)) :=
      rel_ite (fun _ => h.skipGroup.bind fun _ _ hnear => .ok ⟨rfl, hnear⟩) fun _ => h.fails _
    simp only [Cursor.propertyKey, peek?, hc, hd, List.head?_cons, ← hlike.kind, ← hlike.stringValue?_congr,
      ← hlike.isPunct_congr]
    rw [← hc]
    cases hkind : t.kind with
    | ident => exact .ok ⟨congrArg some (hlike.flat (by rw [hkind]; rfl)), hnext⟩
    | number => exact .ok ⟨congrArg some (hlike.flat (by rw [hkind]; rfl)), hnext⟩
    | string => exact .ok ⟨rfl, hnext⟩
    | template => exact hgroup
    | regex => exact hgroup
    | jsx => exact hgroup
    | punct => exact hgroup

end Cursor.Alike

/-! ## Parameters -/

namespace Pattern

theorem skipTarget_rel (h : Alike L P c d) :
    Parsed.Rel P (Near L P (c.ahead.length + 1)) (skipTarget c) (skipTarget d) := by
  rcases h.eat? ":" with ⟨hc, hd⟩ | ⟨c', d', hc, hd, h', hlt⟩
  · simp only [skipTarget, hc, hd]
    exact .ok (h.near (Nat.lt_succ_self _))
  · simp only [skipTarget, hc, hd, h'.nextIs]
    refine rel_ite (fun _ => ?_) fun _ => ?_
    · exact h'.skipGroup.mono fun _ _ hnear => hnear.mono (by omega)
    · exact h'.identifier.map fun _ _ hpair => hpair.2.mono (by omega)

/-- The properties of a key have the same defaults but for texts that are kept. -/
theorem reword_propOfKey {f : String → String} {init init' : Option Expr} (h : reword f init = reword f init')
    (key : Option String) :
    reword f (key.toList.map fun k => (⟨k, init.isSome, init.bind (·.literal?)⟩ : PatternProp)) =
      reword f (key.toList.map fun k => (⟨k, init'.isSome, init'.bind (·.literal?)⟩ : PatternProp)) := by
  have hsome : init.isSome = init'.isSome := by rw [← isSome_reword f, h, isSome_reword]
  have hliteral : reword f (init.bind (·.literal?)) = reword f (init'.bind (·.literal?)) := by
    rw [← bind_literal?_reword, h, bind_literal?_reword]
  cases key with
  | none => rfl
  | some k => simp [hsome, hliteral]

/-- Every property takes a token, so the rounds never run out. -/
theorem parseProps_rel (hi : Inner.Rel L P k i j) (h : Alike L P c d) (hk : c.ahead.length ≤ k)
    (hn : c.ahead.length < n) (hm : c.ahead.length < m) :
    Parsed.Rel P (NearLike L P (c.ahead.length + 1)) (parseProps i n c) (parseProps j m d) := by
  induction n generalizing m c d with
  | zero => omega
  | succ n ih =>
    obtain ⟨m, rfl⟩ : ∃ p, m = p + 1 := ⟨m - 1, by omega⟩
    simp only [parseProps, h.nextIs, h.atEnd]
    refine rel_ite (fun _ => .ok ⟨rfl, h.near (Nat.lt_succ_self _)⟩) fun _ => rel_ite (fun _ => h.fails _) fun _ => ?_
    rcases h.eat? "..." with ⟨hc, hd⟩ | ⟨c₁, d₁, hc, hd, h₁, hlt₁⟩ <;> simp only [hc, hd]
    · refine bindPair h.propertyKey fun key c₁ d₁ h₁ hlt₁ => ?_
      refine bindNear (skipTarget_rel h₁) fun c₂ d₂ h₂ hlt₂ => ?_
      refine bindLike (hi.initializer? h₂ (by omega)) fun init init' c₃ d₃ hinit h₃ hlt₃ => ?_
      have hhere := reword_propOfKey hinit key
      rcases h₃.eat? "," with ⟨hc, hd⟩ | ⟨c₄, d₄, hc, hd, h₄, hlt₄⟩ <;> simp only [hc, hd]
      · exact .ok ⟨hhere, h₃.near (by omega)⟩
      · refine bindLike (ih h₄ (by omega) (by omega) (by omega)) fun more more' c₅ d₅ hmore h₅ hlt₅ => ?_
        exact .ok ⟨by rw [reword_append, reword_append, hhere, hmore], h₅.near (by omega)⟩
    · refine bindPair h₁.identifier fun name c₂ d₂ h₂ hlt₂ => ?_
      obtain ⟨h₃, hlt₃⟩ := h₂.skip ","
      dsimp only
      exact widenLike (ih h₃ (by omega) (by omega) (by omega)) (by omega)

theorem parseObject_rel (hi : Inner.Rel L P k i j) (h : Alike L P c d) (hk : c.ahead.length ≤ k) :
    Parsed.Rel P (NearLike L P c.ahead.length) (parseObject i c) (parseObject j d) := by
  have hrounds := hi.rounds
  have hrounds' := hi.rounds'
  refine bindNear (h.expect _) fun c₁ d₁ h₁ hlt₁ => ?_
  refine bindLike (parseProps_rel hi h₁ (by omega) (by omega) (by omega)) fun props props' c₂ d₂ hprops h₂ hlt₂ => ?_
  refine bindNear (h₂.expect _) fun c₃ d₃ h₃ hlt₃ => ?_
  exact .ok ⟨congrArg Pattern.object hprops, h₃.near (by omega)⟩

/-- A pattern takes a token. -/
theorem parse_rel (hi : Inner.Rel L P k i j) (h : Alike L P c d) (hk : c.ahead.length ≤ k) :
    Parsed.Rel P (NearLike L P c.ahead.length) (parse i c) (parse j d) := by
  rcases h.eat? "..." with ⟨hc, hd⟩ | ⟨c₁, d₁, hc, hd, h₁, hlt₁⟩
  · simp only [parse, hc, hd, h.nextIs]
    refine rel_ite (fun _ => parseObject_rel hi h hk) fun _ => rel_ite (fun _ => ?_) fun _ => ?_
    · exact bindNear h.skipGroup fun c₁ d₁ h₁ hlt₁ => .ok ⟨rfl, h₁, hlt₁⟩
    · exact bindPair h.identifier fun name c₁ d₁ h₁ hlt₁ => .ok ⟨rfl, h₁, hlt₁⟩
  · simp only [parse, hc, hd, h₁.nextIsKind]
    refine rel_ite (fun _ => ?_) fun _ => ?_
    · exact bindPair h₁.identifier fun name c₂ d₂ h₂ hlt₂ => .ok ⟨rfl, h₂.near (by omega)⟩
    · exact bindNear h₁.skipGroup fun c₂ d₂ h₂ hlt₂ => .ok ⟨rfl, h₂.near (by omega)⟩

end Pattern

namespace Param

variable {b b' : Option Token} {ts us : List Token}

/-- Modifiers are told from texts of several lines, whatever kind of token these stand in. -/
theorem oneLine_modifiers : ∀ w ∈ modifiers, '\n' ∉ w.toList := by decide

/-- Modifiers are passed up to the same token. -/
theorem skipModifiers_near (h : Alike L P ⟨b, ts⟩ ⟨b', us⟩) :
    Near L P (ts.length + 1) (skipModifiers b ts) (skipModifiers b' us) := by
  induction ts generalizing b b' us with
  | nil =>
    obtain rfl := h.nil
    exact h.near (Nat.lt_succ_self _)
  | cons t r ih =>
    obtain ⟨u, s, rfl, hlike, h'⟩ := h.uncons
    simp only [skipModifiers, h.nthIsKind, h.nthIs, ← Likeness.contains_congr hlike.text oneLine_modifiers]
    exact rel_ite (fun _ => (ih h').mono (Nat.le_succ _)) fun _ => h.near (Nat.lt_succ_self _)

/-- A parameter takes a token. -/
theorem parse_rel (hi : Inner.Rel L P k i j) (h : Alike L P c d) (hk : c.ahead.length ≤ k) :
    Parsed.Rel P (NearLike L P c.ahead.length) (parse i c) (parse j d) := by
  obtain ⟨h₁, hlt₁⟩ : Near L P (c.ahead.length + 1) (skipModifiers c.before c.ahead) (skipModifiers d.before d.ahead) :=
    skipModifiers_near h
  simp only [parse]
  generalize skipModifiers c.before c.ahead = c₁ at h₁ hlt₁ ⊢
  generalize skipModifiers d.before d.ahead = d₁ at h₁ ⊢
  refine bindLike (Pattern.parse_rel hi h₁ (by omega)) fun pattern pattern' c₂ d₂ hpattern h₂ hlt₂ => ?_
  obtain ⟨h₃, hlt₃⟩ := h₂.skip "?"
  rw [h₂.nextIs]
  refine bindLike (hi.annotation? h₃ (by omega)) fun type type' c₄ d₄ htype h₄ hlt₄ => ?_
  rcases h₄.eat? "=" with ⟨hc, hd⟩ | ⟨c₅, d₅, hc, hd, h₅, hlt₅⟩ <;> simp only [hc, hd]
  · exact .ok ⟨by simp [hpattern, htype], h₄.near (by omega)⟩
  · exact .ok ⟨by simp [hpattern, htype], h₅.skipExpr.mono (by omega)⟩

theorem isThis_reword {f : String → String} (p : Param) : (reword f p).isThis = p.isThis := by
  obtain ⟨pattern, optional, type, hasDefault⟩ := p
  cases pattern <;> rfl

/-- Every parameter takes a token, so the rounds never run out. -/
theorem parseRest_rel (hi : Inner.Rel L P k i j) (h : Alike L P c d) (hk : c.ahead.length ≤ k)
    (hn : c.ahead.length < n) (hm : c.ahead.length < m) :
    Parsed.Rel P (NearLike L P (c.ahead.length + 1)) (parseRest i n c) (parseRest j m d) := by
  induction n generalizing m c d with
  | zero => omega
  | succ n ih =>
    obtain ⟨m, rfl⟩ : ∃ p, m = p + 1 := ⟨m - 1, by omega⟩
    simp only [parseRest, h.nextIs, h.atEnd]
    refine rel_ite (fun _ => .ok ⟨rfl, h.near (Nat.lt_succ_self _)⟩) fun _ => rel_ite (fun _ => h.fails _) fun _ => ?_
    refine bindLike (parse_rel hi h hk) fun p p' c₁ d₁ hp h₁ hlt₁ => ?_
    have hhere : reword L.see (if p.isThis then [] else [p]) = reword L.see (if p'.isThis then [] else [p']) := by
      rw [← isThis_reword (f := L.see) p, hp, isThis_reword]
      split
      case isTrue => rfl
      case isFalse => exact congrArg ([·]) hp
    rcases h₁.eat? "," with ⟨hc, hd⟩ | ⟨c₂, d₂, hc, hd, h₂, hlt₂⟩ <;> simp only [hc, hd]
    · exact .ok ⟨hhere, h₁.near (by omega)⟩
    · refine bindLike (ih h₂ (by omega) (by omega) (by omega)) fun more more' c₃ d₃ hmore h₃ hlt₃ => ?_
      exact .ok ⟨by rw [reword_append, reword_append, hhere, hmore], h₃.near (by omega)⟩

theorem parseList_rel (hi : Inner.Rel L P k i j) (h : Alike L P c d) (hk : c.ahead.length ≤ k) :
    Parsed.Rel P (NearLike L P c.ahead.length) (parseList i c) (parseList j d) := by
  have hrounds := hi.rounds
  have hrounds' := hi.rounds'
  refine bindNear (h.expect _) fun c₁ d₁ h₁ hlt₁ => ?_
  refine bindLike (parseRest_rel hi h₁ (by omega) (by omega) (by omega)) fun ps ps' c₂ d₂ hps h₂ hlt₂ => ?_
  refine bindNear (h₂.expect _) fun c₃ d₃ h₃ hlt₃ => ?_
  exact .ok ⟨hps, h₃.near (by omega)⟩

end Param

namespace FunctionSig

theorem skipBody_rel (h : Alike L P c d) : Parsed.Rel P (Near L P (c.ahead.length + 1)) (skipBody c) (skipBody d) := by
  simp only [skipBody, h.nextIs]
  exact rel_ite (fun _ => h.skipGroup.mono fun _ _ hnear => hnear.mono (Nat.le_succ _)) fun _ => .ok (h.skip _)

/-- The parentheses of a function are tokens. -/
theorem parse_rel (hi : Inner.Rel L P k i j) (isAsync : Bool) (h : Alike L P c d) (hk : c.ahead.length ≤ k) :
    Parsed.Rel P (NearLike L P c.ahead.length) (parse i isAsync c) (parse j isAsync d) := by
  refine bindNear h.skipAnglesIfNext fun c₁ d₁ h₁ hlt₁ => ?_
  refine bindLike (Param.parseList_rel hi h₁ (by omega)) fun params params' c₂ d₂ hparams h₂ hlt₂ => ?_
  refine bindLike (hi.annotation? h₂ (by omega)) fun _ _ c₃ d₃ _ h₃ hlt₃ => ?_
  refine bindNear (skipBody_rel h₃) fun c₄ d₄ h₄ hlt₄ => ?_
  exact .ok ⟨by simp [hparams], h₄.near (by omega)⟩

end FunctionSig

end AppBundler
