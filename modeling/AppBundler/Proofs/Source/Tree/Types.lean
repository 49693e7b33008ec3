import AppBundler.Source.Tree.Types
import AppBundler.Proofs.Source.Tree.Params
/-!
# Types, with enough levels

Types are read in the same way at places that are alike, over parsers that are related for what stands inside them.
-/

namespace AppBundler

namespace TypeExpr

open Cursor

variable {L : Likeness} {P : Cursor → Cursor → Prop} {k n m : Nat} {i j : Inner} {c d : Cursor}

/-- A function type is found on both sides or on neither. -/
theorem skipFunction?_cases (hi : Inner.Rel L P k i j) (h : Alike L P c d) (hk : c.ahead.length ≤ k) :
    skipFunction? i c = none ∧ skipFunction? j d = none ∨
      ∃ c' d', skipFunction? i c = some c' ∧ skipFunction? j d = some d' ∧ Near L P c.ahead.length c' d' := by
  have hlist := Param.parseList_rel hi h hk
  unfold skipFunction?
  generalize Param.parseList i c = x at hlist
  generalize Param.parseList j d = y at hlist
  cases hlist with
  | error he => exact Or.inl ⟨rfl, rfl⟩
  | @ok a b hab =>
    obtain ⟨ps, c₁⟩ := a
    obtain ⟨ps', d₁⟩ := b
    obtain ⟨-, h₁, hlt₁⟩ := hab
    dsimp only at h₁ hlt₁ ⊢
    rcases h₁.eat? "=>" with ⟨hc, hd⟩ | ⟨c₂, d₂, hc, hd, h₂, hlt₂⟩
    · rw [hc, hd]
      exact Or.inl ⟨rfl, rfl⟩
    · rw [hc, hd]
      dsimp only
      have htype := hi.type h₂ (by omega)
      generalize i.type c₂ = x at htype
      generalize j.type d₂ = y at htype
      cases htype with
      | error he => exact Or.inl ⟨rfl, rfl⟩
      | @ok a b hab => exact Or.inr ⟨a.2, b.2, rfl, rfl, hab.2.mono (by omega)⟩

/-! ## Members of an object type -/

theorem isMapped_eq (h : Alike L P c d) : isMapped d = isMapped c := by
  simp only [isMapped, h.nthIs, h.nthIsIdent]

theorem skipReadonly_near (h : Alike L P c d) : Near L P (c.ahead.length + 1) (skipReadonly c) (skipReadonly d) := by
  simp only [skipReadonly, h.nextIsIdent, h.keyAfterNext, h.nthIs]
  exact rel_ite (fun _ => ⟨h.next, Nat.lt_succ_of_le length_next_le⟩) fun _ => h.near (Nat.lt_succ_self _)

theorem isSignature_eq (h : Alike L P c d) : isSignature d = isSignature c := by
  simp only [isSignature, h.nextIs, h.nextIsIdent, h.keyAfterNext, h.nthIs]

/-- A signature does not begin with a brace. -/
theorem not_brace_of_isSignature (h : isSignature c = true) : c.ahead ≠ [] ∧ c.nextIs "\x7d" = false := by
  obtain ⟨b, ts⟩ := c
  cases ts with
  | nil => simp [isSignature, nextIs, nextIsIdent, nthIs, nthIsIdent, peekAt?] at h
  | cons t r =>
    refine ⟨by simp, ?_⟩
    by_contra hbrace
    obtain ⟨hkind, htext⟩ : t.kind = .punct ∧ t.text = "\x7d" := by
      simpa [nextIs, nthIs, peekAt?, Token.isPunct] using hbrace
    simp [isSignature, nextIs, nextIsIdent, nthIs, nthIsIdent, peekAt?, Token.isPunct, Token.isIdent, hkind,
      htext] at h

theorem memberKey_rel (h : Alike L P c d) : Parsed.Rel P (NearPair L P c.ahead.length) (memberKey c) (memberKey d) := by
  rcases h.cases with ⟨hc, hd⟩ | ⟨t, r, u, s, hc, hd, hlike⟩
  · simp only [memberKey, peek?, hc, hd, List.head?_nil]
    exact h.fails _
  · have hnext := h.next_near (by simp [hc])
    simp only [memberKey, peek?, hc, hd, List.head?_cons, ← hlike.kind, ← hlike.stringValue?_congr]
    rw [← hc]
    cases hkind : t.kind with
    | ident => exact .ok ⟨hlike.flat (by rw [hkind]; rfl), hnext⟩
    | number => exact .ok ⟨hlike.flat (by rw [hkind]; rfl), hnext⟩
    | string => exact .ok ⟨rfl, hnext⟩
    | template => exact h.fails _
    | regex => exact h.fails _
    | jsx => exact h.fails _
    | punct => exact h.fails _

theorem memberType_rel (hi : Inner.Rel L P k i j) (h : Alike L P c d) (hk : c.ahead.length ≤ k) :
    Parsed.Rel P (fun x y => reword L.see x.1 = reword L.see y.1 ∧ NearPair L P (c.ahead.length + 1) x.2 y.2)
      (memberType i c) (memberType j d) := by
  simp only [memberType, h.nextIs]
  refine rel_ite (fun _ => ?_) fun _ => ?_
  · refine bindNear h.skipAnglesIfNext fun c₁ d₁ h₁ hlt₁ => ?_
    refine bindLike (Param.parseList_rel hi h₁ (by omega)) fun _ _ c₂ d₂ _ h₂ hlt₂ => ?_
    refine bindLike (hi.annotation? h₂ (by omega)) fun _ _ c₃ d₃ _ h₃ hlt₃ => ?_
    exact .ok ⟨rfl, rfl, h₃.near (by omega)⟩
  · refine bindLike (hi.annotation? h hk) fun t t' c₁ d₁ ht h₁ hlt₁ => ?_
    exact .ok ⟨ht, rfl, h₁, hlt₁⟩

/-- Every member takes a token, so the rounds never run out. -/
theorem parseMembers_rel (hi : Inner.Rel L P k i j) (h : Alike L P c d) (hk : c.ahead.length ≤ k)
    (hn : c.ahead.length < n) (hm : c.ahead.length < m) :
    Parsed.Rel P (NearLike L P (c.ahead.length + 1)) (parseMembers i n c) (parseMembers j m d) := by
  induction n generalizing m c d with
  | zero => omega
  | succ n ih =>
    obtain ⟨m, rfl⟩ : ∃ p, m = p + 1 := ⟨m - 1, by omega⟩
    have hmore {c' d'} (hnear : Near L P c.ahead.length c' d') :
        Parsed.Rel P (NearLike L P (c.ahead.length + 1)) (parseMembers i n c') (parseMembers j m d') := by
      obtain ⟨h', hlt⟩ := hnear
      exact widenLike (ih h' (by omega) (by omega) (by omega)) (by omega)
    have hdoc : (d.peek?.bind (·.doc)).map L.see = (c.peek?.bind (·.doc)).map L.see := by
      rw [Option.map_bind, Option.map_bind]
      exact h.bind_peek? fun _ _ hlike => hlike.doc
    simp only [parseMembers, h.nextIs, h.atEnd]
    refine rel_ite (fun _ => .ok ⟨rfl, h.near (Nat.lt_succ_self _)⟩) fun _ => rel_ite (fun _ => h.fails _) fun hend => ?_
    have hne : c.ahead ≠ [] := by simpa [Cursor.atEnd] using hend
    refine rel_ite (fun _ => hmore (h.next_near hne)) fun _ => ?_
    obtain ⟨h₁, hlt₁⟩ := skipReadonly_near h
    rw [isSignature_eq h₁]
    refine rel_ite (fun hsignature => ?_) fun _ => ?_
    · obtain ⟨hne₁, hbrace⟩ := not_brace_of_isSignature hsignature
      exact hmore ((h₁.skipTypeMember hne₁ hbrace).mono (by omega))
    · refine bindPair (memberKey_rel h₁) fun key c₂ d₂ h₂ hlt₂ => ?_
      obtain ⟨h₃, hlt₃⟩ := h₂.skip "?"
      dsimp only
      rw [h₂.nextIs]
      refine (memberType_rel hi h₃ (by omega)).bind ?_
      rintro ⟨type, method, c₄⟩ ⟨type', _, d₄⟩ ⟨htype, rfl, hnear₄⟩
      obtain ⟨h₄, hlt₄⟩ : Near L P _ c₄ d₄ := hnear₄
      dsimp only
      rw [h₄.nextIs, h₄.nextIs]
      have hpassed : Near L P c.ahead.length (if c₄.nextIs ";" || c₄.nextIs "," then c₄.next else c₄)
          (if c₄.nextIs ";" || c₄.nextIs "," then d₄.next else d₄) :=
        rel_ite (fun _ => ⟨h₄.next, by have := length_next_le (c := c₄); omega⟩) fun _ => h₄.near (by omega)
      have h₅ := hpassed.1
      rw [h₅.nextIs, h₅.newlineNext]
      refine rel_ite (fun _ => h₅.fails _) fun _ => bindLike (hmore hpassed) fun more more' c₆ d₆ hmore h₆ hlt₆ => ?_
      dsimp only at htype
      exact .ok ⟨by simp only [reword_cons, reword_member, htype, hdoc, hmore], h₆, hlt₆⟩

theorem parseObject_rel (hi : Inner.Rel L P k i j) (h : Alike L P c d) (hk : c.ahead.length ≤ k) :
    Parsed.Rel P (NearLike L P c.ahead.length) (parseObject i c) (parseObject j d) := by
  have hrounds := hi.rounds
  have hrounds' := hi.rounds'
  refine bindNear (h.expect _) fun c₁ d₁ h₁ hlt₁ => ?_
  refine bindLike (parseMembers_rel hi h₁ (by omega) (by omega) (by omega)) fun ms ms' c₂ d₂ hms h₂ hlt₂ => ?_
  refine bindNear (h₂.expect _) fun c₃ d₃ h₃ hlt₃ => ?_
  exact .ok ⟨hms, h₃.near (by omega)⟩

/-! ## Names and primary types -/

/-- Every argument takes a token, so the rounds never run out. -/
theorem parseArgs_rel (hi : Inner.Rel L P k i j) (h : Alike L P c d) (hk : c.ahead.length < k)
    (hn : c.ahead.length < n) (hm : c.ahead.length < m) :
    Parsed.Rel P (NearLike L P (c.ahead.length + 1)) (parseArgs i n c) (parseArgs j m d) := by
  induction n generalizing m c d with
  | zero => omega
  | succ n ih =>
    obtain ⟨m, rfl⟩ : ∃ p, m = p + 1 := ⟨m - 1, by omega⟩
    simp only [parseArgs, h.nextIs]
    refine rel_ite (fun _ => .ok ⟨rfl, h.near (Nat.lt_succ_self _)⟩) fun _ => ?_
    refine bindLike (hi.type h hk) fun t t' c₁ d₁ ht h₁ hlt₁ => ?_
    rcases h₁.eat? "," with ⟨hc, hd⟩ | ⟨c₂, d₂, hc, hd, h₂, hlt₂⟩ <;> simp only [hc, hd]
    · exact .ok ⟨congrArg ([·]) ht, h₁.near (by omega)⟩
    · refine bindLike (ih h₂ (by omega) (by omega) (by omega)) fun more more' c₃ d₃ hmore h₃ hlt₃ => ?_
      exact .ok ⟨by rw [reword_cons, reword_cons, ht, hmore], h₃.near (by omega)⟩

theorem parseReference_rel (hi : Inner.Rel L P k i j) (h : Alike L P c d) (hk : c.ahead.length ≤ k) :
    Parsed.Rel P (NearLike L P c.ahead.length) (parseReference i c) (parseReference j d) := by
  have hrounds := hi.rounds
  have hrounds' := hi.rounds'
  refine bindPair h.qualifiedName fun name c₁ d₁ h₁ hlt₁ => ?_
  dsimp only
  rw [h₁.nextIsIdent, h₁.newlineNext]
  refine rel_ite (fun _ => ?_) fun _ => rel_ite (fun _ => .ok ⟨rfl, h₁, hlt₁⟩) fun _ => ?_
  · have hle := length_next_le (c := c₁)
    refine bindLike (hi.type h₁.next (by omega)) fun _ _ c₂ d₂ _ h₂ hlt₂ => ?_
    exact .ok ⟨rfl, h₂.near (by omega)⟩
  · rcases h₁.eat? "<" with ⟨hc, hd⟩ | ⟨c₂, d₂, hc, hd, h₂, hlt₂⟩ <;> simp only [hc, hd]
    · exact .ok ⟨rfl, h₁, hlt₁⟩
    · refine bindLike (parseArgs_rel hi h₂ (by omega) (by omega) (by omega)) fun args args' c₃ d₃ hargs h₃ hlt₃ => ?_
      refine bindNear (h₃.expect _) fun c₄ d₄ h₄ hlt₄ => ?_
      exact .ok ⟨by rw [reword_reference, reword_reference, hargs], h₄.near (by omega)⟩

theorem parseConstructor_rel (hi : Inner.Rel L P k i j) (h : Alike L P c d) (hk : c.ahead.length ≤ k) :
    Parsed.Rel P (NearLike L P (c.ahead.length + 1)) (parseConstructor i c) (parseConstructor j d) := by
  obtain ⟨h₁, hlt₁⟩ := h.skipIdent "new"
  refine bindNear h₁.skipAnglesIfNext fun c₂ d₂ h₂ hlt₂ => ?_
  rcases skipFunction?_cases hi h₂ (by omega) with ⟨hc, hd⟩ | ⟨c₃, d₃, hc, hd, h₃, hlt₃⟩ <;> simp only [hc, hd]
  · exact h₂.fails _
  · exact .ok ⟨rfl, h₃.near (by omega)⟩

/-- A word is passed, so what follows it may be read one level below. -/
theorem parseNamed_rel (hi : Inner.Rel L P k i j) (name : String) (h : Alike L P c d) (hk : c.ahead.length ≤ k)
    (hne : c.ahead ≠ []) : Parsed.Rel P (NearLike L P c.ahead.length) (parseNamed i name c) (parseNamed j name d) := by
  obtain ⟨h₁, hlt₁⟩ := h.next_near hne
  have hle := length_next_le (c := c.next)
  simp only [parseNamed, h.nthIsKind]
  refine rel_ite (fun _ => ?_) fun _ => rel_ite (fun _ => ?_) fun _ => ?_
  · rcases h₁.eatIdent? "typeof" with ⟨hc, hd⟩ | ⟨c₂, d₂, hc, hd, h₂, hlt₂⟩ <;> simp only [hc, hd]
    · exact bindLike (hi.postfixType h₁ (by omega)) fun _ _ c₂ d₂ _ h₂ hlt₂ => .ok ⟨rfl, h₂.near (by omega)⟩
    · exact bindPair h₂.qualifiedName fun _ c₃ d₃ h₃ hlt₃ => .ok ⟨rfl, h₃.near (by omega)⟩
  · refine bindPair h₁.qualifiedName fun _ c₂ d₂ h₂ hlt₂ => ?_
    exact bindNear h₂.skipAnglesIfNext fun c₃ d₃ h₃ hlt₃ => .ok ⟨rfl, h₃.near (by omega)⟩
  refine rel_ite (fun _ => widenLike (hi.postfixType h₁ (by omega)) (by omega)) fun _ => rel_ite (fun _ => ?_) fun _ => ?_
  · exact bindLike (hi.primaryType h₁ (by omega)) fun _ _ c₂ d₂ _ h₂ hlt₂ => .ok ⟨rfl, h₂.near (by omega)⟩
  refine rel_ite (fun _ => widenLike (parseConstructor_rel hi h₁ (by omega)) (by omega)) fun _ => rel_ite (fun _ => ?_) fun _ => ?_
  · rcases h₁.next.eatIdent? "is" with ⟨hc, hd⟩ | ⟨c₂, d₂, hc, hd, h₂, hlt₂⟩ <;> simp only [hc, hd]
    · exact .ok ⟨rfl, h₁.next.near (by omega)⟩
    · exact bindLike (hi.type h₂ (by omega)) fun _ _ c₃ d₃ _ h₃ hlt₃ => .ok ⟨rfl, h₃.near (by omega)⟩
  refine rel_ite (fun _ => .ok ⟨rfl, h₁, hlt₁⟩) fun _ => rel_ite (fun _ => .ok ⟨rfl, h₁, hlt₁⟩) fun _ => ?_
  exact parseReference_rel hi h hk

theorem parseParenthesized_rel (hi : Inner.Rel L P k i j) (h : Alike L P c d) (hk : c.ahead.length ≤ k)
    (hne : c.ahead ≠ []) :
    Parsed.Rel P (NearLike L P c.ahead.length) (parseParenthesized i c) (parseParenthesized j d) := by
  unfold parseParenthesized
  rcases skipFunction?_cases hi h hk with ⟨hc, hd⟩ | ⟨c₁, d₁, hc, hd, h₁, hlt₁⟩ <;> simp only [hc, hd]
  · obtain ⟨h₁, hlt₁⟩ := h.next_near hne
    refine bindLike (hi.type h₁ (by omega)) fun t t' c₂ d₂ ht h₂ hlt₂ => ?_
    exact bindNear (h₂.expect _) fun c₃ d₃ h₃ hlt₃ => .ok ⟨ht, h₃.near (by omega)⟩
  · exact .ok ⟨rfl, h₁, hlt₁⟩

theorem parsePunct_rel (hi : Inner.Rel L P k i j) (text : String) (h : Alike L P c d) (hk : c.ahead.length ≤ k)
    (hne : c.ahead ≠ []) : Parsed.Rel P (NearLike L P c.ahead.length) (parsePunct i text c) (parsePunct j text d) := by
  simp only [parsePunct, isMapped_eq h]
  refine rel_ite (fun _ => parseParenthesized_rel hi h hk hne) fun _ => rel_ite (fun _ => ?_) fun _ => ?_
  · refine bindNear h.skipAngles fun c₁ d₁ h₁ hlt₁ => ?_
    rcases skipFunction?_cases hi h₁ (by omega) with ⟨hc, hd⟩ | ⟨c₂, d₂, hc, hd, h₂, hlt₂⟩ <;> simp only [hc, hd]
    · exact h₁.fails _
    · exact .ok ⟨rfl, h₂.near (by omega)⟩
  refine rel_ite (fun _ => rel_ite (fun _ => ?_) fun _ => ?_) fun _ => rel_ite (fun _ => ?_) fun _ => ?_
  · exact bindNear h.skipGroup fun c₁ d₁ h₁ hlt₁ => .ok ⟨rfl, h₁, hlt₁⟩
  · refine bindLike (parseObject_rel hi h hk) fun ms ms' c₁ d₁ hms h₁ hlt₁ => ?_
    exact .ok ⟨by rw [reword_object, reword_object, hms], h₁, hlt₁⟩
  · exact bindNear h.skipGroup fun c₁ d₁ h₁ hlt₁ => .ok ⟨rfl, h₁, hlt₁⟩
  · have hrel := h.peekAt? 1
    generalize c.peekAt? 1 = t, d.peekAt? 1 = u at hrel ⊢
    cases hrel with
    | none => exact h.fails _
    | @some t u hlike =>
      simp only [← hlike.kind]
      refine rel_ite (fun hnumber => .ok ⟨?_, h.next.next, ?_⟩) fun _ => h.fails _
      · obtain ⟨-, hkind⟩ : text = "-" ∧ t.kind = .number := by simpa using hnumber
        rw [hlike.flat (by rw [hkind]; rfl)]
      · exact Nat.lt_of_le_of_lt length_next_le (h.next_near hne).2

/-- A type without suffixes takes a token. -/
theorem parsePrimary_rel (hi : Inner.Rel L P k i j) (h : Alike L P c d) (hk : c.ahead.length ≤ k) :
    Parsed.Rel P (NearLike L P c.ahead.length) (parsePrimary i c) (parsePrimary j d) := by
  rcases h.cases with ⟨hc, hd⟩ | ⟨t, r, u, s, hc, hd, hlike⟩
  · simp only [parsePrimary, peek?, hc, hd, List.head?_nil]
    exact h.fails _
  · have hne : c.ahead ≠ [] := by simp [hc]
    have hnext := h.next_near hne
    simp only [parsePrimary, peek?, hc, hd, List.head?_cons, ← hlike.kind, ← hlike.stringValue?_congr]
    rw [← hc]
    cases hkind : t.kind with
    | string => exact .ok ⟨rfl, hnext⟩
    | number =>
      rw [← hlike.flat (by rw [hkind]; rfl)]
      exact .ok ⟨rfl, hnext⟩
    | template => exact .ok ⟨rfl, hnext⟩
    | punct =>
      rw [← hlike.flat (by rw [hkind]; rfl)]
      exact parsePunct_rel hi _ h hk hne
    | ident =>
      rw [← hlike.flat (by rw [hkind]; rfl)]
      exact parseNamed_rel hi _ h hk hne
    | regex => exact h.fails _
    | jsx => exact h.fails _

/-! ## Suffixes and operators -/

theorem parseSuffixes_rel {t t' : TypeExpr} (ht : reword L.see t = reword L.see t') (h : Alike L P c d) (hn : c.ahead.length < n) (hm : c.ahead.length < m) :
    Parsed.Rel P (NearLike L P (c.ahead.length + 1)) (parseSuffixes t n c) (parseSuffixes t' m d) := by
  induction n generalizing t t' m c d with
  | zero => omega
  | succ n ih =>
    obtain ⟨m, rfl⟩ : ∃ p, m = p + 1 := ⟨m - 1, by omega⟩
    simp only [parseSuffixes, h.nextIs, h.newlineNext, h.nthIs]
    refine rel_ite (fun hnext => ?_) fun _ => .ok ⟨ht, h.near (Nat.lt_succ_self _)⟩
    have hlt₁ := length_next_lt (ne_nil_of_nextIs (Bool.and_eq_true_iff.mp hnext).1)
    have hle := length_next_le (c := c.next)
    refine rel_ite (fun _ => widenLike (ih (congrArg array ht) h.next.next (by omega) (by omega)) (by omega)) fun _ => ?_
    refine bindNear h.skipGroup fun c₁ d₁ h₁ hlt₁ => ?_
    exact widenLike (ih rfl h₁ (by omega) (by omega)) (by omega)

theorem parsePostfix_rel (hi : Inner.Rel L P k i j) (h : Alike L P c d) (hk : c.ahead.length ≤ k) :
    Parsed.Rel P (NearLike L P c.ahead.length) (parsePostfix i c) (parsePostfix j d) := by
  have hrounds := hi.rounds
  have hrounds' := hi.rounds'
  refine bindLike (parsePrimary_rel hi h hk) fun t t' c₁ d₁ ht h₁ hlt₁ => ?_
  exact widenLike (parseSuffixes_rel ht h₁ (by omega) (by omega)) (by omega)

/-- Every operator is a token, so the rounds never run out. -/
theorem parseOperands_rel {operator : String} {p q : Cursor → Parsed (TypeExpr × Cursor)}
    (hoperand : ∀ {c d}, Alike L P c d → c.ahead.length ≤ k → Parsed.Rel P (NearLike L P c.ahead.length) (p c) (q d))
    (h : Alike L P c d) (hk : c.ahead.length ≤ k) (hn : c.ahead.length < n) (hm : c.ahead.length < m) :
    Parsed.Rel P (NearLike L P (c.ahead.length + 1)) (parseOperands operator p n c) (parseOperands operator q m d) := by
  induction n generalizing m c d with
  | zero => omega
  | succ n ih =>
    obtain ⟨m, rfl⟩ : ∃ p, m = p + 1 := ⟨m - 1, by omega⟩
    simp only [parseOperands]
    rcases h.eat? operator with ⟨hc, hd⟩ | ⟨c₁, d₁, hc, hd, h₁, hlt₁⟩ <;> simp only [hc, hd]
    · exact .ok ⟨rfl, h.near (Nat.lt_succ_self _)⟩
    · refine bindLike (hoperand h₁ (by omega)) fun t t' c₂ d₂ ht h₂ hlt₂ => ?_
      refine bindLike (ih h₂ (by omega) (by omega) (by omega)) fun more more' c₃ d₃ hmore h₃ hlt₃ => ?_
      exact .ok ⟨by rw [reword_cons, reword_cons, ht, hmore], h₃.near (by omega)⟩

theorem parseIntersection_rel (hi : Inner.Rel L P k i j) (h : Alike L P c d) (hk : c.ahead.length ≤ k) :
    Parsed.Rel P (NearLike L P c.ahead.length) (parseIntersection i c) (parseIntersection j d) := by
  have hrounds := hi.rounds
  have hrounds' := hi.rounds'
  obtain ⟨h₁, hlt₁⟩ := h.skip "&"
  refine bindLike (parsePostfix_rel hi h₁ (by omega)) fun t t' c₂ d₂ ht h₂ hlt₂ => ?_
  refine bindLike (parseOperands_rel (parsePostfix_rel hi) h₂ (by omega) (by omega) (by omega))
    fun more more' c₃ d₃ hmore h₃ hlt₃ => ?_
  rcases cases_of_reword hmore with ⟨rfl, rfl⟩ | ⟨u, r, u', r', rfl, rfl⟩
  · exact .ok ⟨ht, h₃.near (by omega)⟩
  · refine .ok ⟨?_, h₃.near (by omega)⟩
    rw [reword_intersection, reword_intersection]
    exact congrArg intersection (congrArg₂ List.cons ht hmore)

theorem parseUnion_rel (hi : Inner.Rel L P k i j) (h : Alike L P c d) (hk : c.ahead.length ≤ k) :
    Parsed.Rel P (NearLike L P c.ahead.length) (parseUnion i c) (parseUnion j d) := by
  have hrounds := hi.rounds
  have hrounds' := hi.rounds'
  obtain ⟨h₁, hlt₁⟩ := h.skip "|"
  refine bindLike (parseIntersection_rel hi h₁ (by omega)) fun t t' c₂ d₂ ht h₂ hlt₂ => ?_
  refine bindLike (parseOperands_rel (parseIntersection_rel hi) h₂ (by omega) (by omega) (by omega))
    fun more more' c₃ d₃ hmore h₃ hlt₃ => ?_
  rcases cases_of_reword hmore with ⟨rfl, rfl⟩ | ⟨u, r, u', r', rfl, rfl⟩
  · exact .ok ⟨ht, h₃.near (by omega)⟩
  · refine .ok ⟨?_, h₃.near (by omega)⟩
    rw [reword_union, reword_union]
    exact congrArg union (congrArg₂ List.cons ht hmore)

/-- **A type** takes a token, over parsers for places with fewer tokens left. -/
theorem parse_rel (hi : Inner.Rel L P k i j) (h : Alike L P c d) (hk : c.ahead.length ≤ k) :
    Parsed.Rel P (NearLike L P c.ahead.length) (parse i c) (parse j d) := by
  refine bindLike (parseUnion_rel hi h hk) fun t t' c₁ d₁ ht h₁ hlt₁ => ?_
  dsimp only
  rw [h₁.nextIsIdent, h₁.newlineNext]
  refine rel_ite (fun _ => ?_) fun _ => .ok ⟨ht, h₁, hlt₁⟩
  have hle := length_next_le (c := c₁)
  refine bindLike (parseUnion_rel hi h₁.next (by omega)) fun _ _ c₂ d₂ _ h₂ hlt₂ => ?_
  refine bindNear (h₂.expect _) fun c₃ d₃ h₃ hlt₃ => ?_
  refine bindLike (hi.type h₃ (by omega)) fun _ _ c₄ d₄ _ h₄ hlt₄ => ?_
  refine bindNear (h₄.expect _) fun c₅ d₅ h₅ hlt₅ => ?_
  refine bindLike (hi.type h₅ (by omega)) fun _ _ c₆ d₆ _ h₆ hlt₆ => ?_
  exact .ok ⟨rfl, h₆.near (by omega)⟩

end TypeExpr

end AppBundler
