import AppBundler.Source.Tree.Items
import AppBundler.Proofs.Source.Tree.Exprs
/-!
# Declarations, with enough levels

Every item takes a token. So a module is read in the same way from any tokens that are alike, and the depth that the
number of tokens gives is as good as any that is larger.
-/

namespace AppBundler

open Cursor

variable {L : Likeness} {P : Cursor → Cursor → Prop} {k n m : Nat} {i j : Inner} {c d : Cursor}

/-! ## Functions and variables -/

theorem Cursor.Alike.identifier? (h : Alike L P c d) :
    Parsed.Rel P (NearPair L P (c.ahead.length + 1)) c.identifier? d.identifier? := by
  simp only [Cursor.identifier?, h.nextIsKind]
  refine rel_ite (fun _ => ?_) fun _ => .ok ⟨rfl, h.near (Nat.lt_succ_self _)⟩
  exact mapPair h.identifier fun name c₁ d₁ h₁ hlt₁ => ⟨rfl, h₁.near (by omega)⟩

theorem FunctionDecl.parse_rel (hi : Inner.Rel L P k i j) (exported : ExportKind) (h : Alike L P c d)
    (hk : c.ahead.length ≤ k) :
    Parsed.Rel P (NearLike L P c.ahead.length) (FunctionDecl.parse i exported c) (FunctionDecl.parse j exported d) := by
  obtain ⟨h₁, hlt₁⟩ := h.skipIdent "async"
  simp only [FunctionDecl.parse, h.nextIsIdent]
  rcases h₁.eatIdent? "function" with ⟨hc, hd⟩ | ⟨c₂, d₂, hc, hd, h₂, hlt₂⟩ <;> simp only [hc, hd]
  · exact h₁.fails _
  · obtain ⟨h₃, hlt₃⟩ := h₂.skip "*"
    refine bindPair h₃.identifier? fun name c₄ d₄ h₄ hlt₄ => ?_
    refine bindLike (FunctionSig.parse_rel hi _ h₄ (by omega)) fun sig sig' c₅ d₅ hsig h₅ hlt₅ => ?_
    exact .ok ⟨congrArg (fun sig => (⟨name, sig, exported⟩ : FunctionDecl)) hsig, h₅.near (by omega)⟩

theorem VariableDecl.parse_rel (hi : Inner.Rel L P k i j) (exported : ExportKind) (h : Alike L P c d)
    (hk : c.ahead.length ≤ k) :
    Parsed.Rel P (NearLike L P c.ahead.length) (VariableDecl.parse i exported c) (VariableDecl.parse j exported d) := by
  simp only [VariableDecl.parse, h.nextIs]
  refine rel_ite (fun _ => ?_) fun _ => ?_
  · refine bindNear h.skipGroup fun c₁ d₁ h₁ hlt₁ => ?_
    refine bindLike (hi.annotation? h₁ (by omega)) fun _ _ c₂ d₂ _ h₂ hlt₂ => ?_
    rcases h₂.eat? "=" with ⟨hc, hd⟩ | ⟨c₃, d₃, hc, hd, h₃, hlt₃⟩ <;> simp only [hc, hd]
    · exact .ok ⟨rfl, h₂.near (by omega)⟩
    · exact .ok ⟨rfl, h₃.skipExpr.mono (by omega)⟩
  · refine bindPair h.identifier fun name c₁ d₁ h₁ hlt₁ => ?_
    obtain ⟨h₂, hlt₂⟩ := h₁.skip "!"
    refine bindLike (hi.annotation? h₂ (by omega)) fun type type' c₃ d₃ htype h₃ hlt₃ => ?_
    refine bindLike (hi.initializer? h₃ (by omega)) fun init init' c₄ d₄ hinit h₄ hlt₄ => ?_
    exact .ok ⟨congrArg₂ (fun type init => some (⟨name, type, init, exported⟩ : VariableDecl)) htype hinit,
      h₄.near (by omega)⟩

/-- Every variable takes a token, so the rounds never run out. -/
theorem VariableDecl.parseRest_rel (hi : Inner.Rel L P k i j) (exported : ExportKind) (h : Alike L P c d)
    (hk : c.ahead.length ≤ k) (hn : c.ahead.length < n) (hm : c.ahead.length < m) :
    Parsed.Rel P (NearLike L P c.ahead.length) (VariableDecl.parseRest i exported n c)
      (VariableDecl.parseRest j exported m d) := by
  induction n generalizing m c d with
  | zero => omega
  | succ n ih =>
    obtain ⟨m, rfl⟩ : ∃ p, m = p + 1 := ⟨m - 1, by omega⟩
    simp only [VariableDecl.parseRest]
    refine bindLike (VariableDecl.parse_rel hi exported h hk) fun v v' c₁ d₁ hv h₁ hlt₁ => ?_
    have hhere : reword L.see v.toList = reword L.see v'.toList := by
      rw [← toList_reword, hv, toList_reword]
    rcases h₁.eat? "," with ⟨hc, hd⟩ | ⟨c₂, d₂, hc, hd, h₂, hlt₂⟩ <;> simp only [hc, hd]
    · exact .ok ⟨hhere, h₁, hlt₁⟩
    · refine bindLike (ih h₂ (by omega) (by omega) (by omega)) fun more more' c₃ d₃ hmore h₃ hlt₃ => ?_
      exact .ok ⟨by rw [reword_append, reword_append, hhere, hmore], h₃.near (by omega)⟩

/-! ## Types, interfaces and enums -/

theorem AliasDecl.parse_rel (hi : Inner.Rel L P k i j) (h : Alike L P c d) (hk : c.ahead.length ≤ k) :
    Parsed.Rel P (NearLike L P c.ahead.length) (AliasDecl.parse i c) (AliasDecl.parse j d) := by
  refine bindPair h.identifier fun name c₁ d₁ h₁ hlt₁ => ?_
  refine bindNear h₁.skipAnglesIfNext fun c₂ d₂ h₂ hlt₂ => ?_
  refine bindNear (h₂.expect _) fun c₃ d₃ h₃ hlt₃ => ?_
  refine bindLike (hi.type h₃ (by omega)) fun type type' c₄ d₄ htype h₄ hlt₄ => ?_
  exact .ok ⟨congrArg (fun type => (⟨name, type⟩ : AliasDecl)) htype, (h₄.skip ";").mono (by omega)⟩

theorem InterfaceDecl.parseBases_rel (h : Alike L P c d) (hn : c.ahead.length < n) (hm : c.ahead.length < m) :
    Parsed.Rel P (NearPair L P c.ahead.length) (InterfaceDecl.parseBases n c) (InterfaceDecl.parseBases m d) := by
  induction n generalizing m c d with
  | zero => omega
  | succ n ih =>
    obtain ⟨m, rfl⟩ : ∃ p, m = p + 1 := ⟨m - 1, by omega⟩
    simp only [InterfaceDecl.parseBases]
    refine bindPair h.qualifiedName fun name c₁ d₁ h₁ hlt₁ => ?_
    refine bindNear h₁.skipAnglesIfNext fun c₂ d₂ h₂ hlt₂ => ?_
    rcases h₂.eat? "," with ⟨hc, hd⟩ | ⟨c₃, d₃, hc, hd, h₃, hlt₃⟩ <;> simp only [hc, hd]
    · exact .ok ⟨rfl, h₂.near (by omega)⟩
    · refine bindPair (ih h₃ (by omega) (by omega)) fun more c₄ d₄ h₄ hlt₄ => ?_
      exact .ok ⟨rfl, h₄.near (by omega)⟩

theorem InterfaceDecl.parseExtends_rel (h : Alike L P c d) (hn : c.ahead.length < n) (hm : c.ahead.length < m) :
    Parsed.Rel P (NearPair L P (c.ahead.length + 1)) (InterfaceDecl.parseExtends n c)
      (InterfaceDecl.parseExtends m d) := by
  unfold InterfaceDecl.parseExtends
  rcases h.eatIdent? "extends" with ⟨hc, hd⟩ | ⟨c₁, d₁, hc, hd, h₁, hlt₁⟩ <;> simp only [hc, hd]
  · exact .ok ⟨rfl, h.near (Nat.lt_succ_self _)⟩
  · exact widen (InterfaceDecl.parseBases_rel h₁ (by omega) (by omega)) (by omega)

theorem InterfaceDecl.parse_rel (hi : Inner.Rel L P k i j) (h : Alike L P c d) (hk : c.ahead.length ≤ k) :
    Parsed.Rel P (NearLike L P c.ahead.length) (InterfaceDecl.parse i c) (InterfaceDecl.parse j d) := by
  have hrounds := hi.rounds
  have hrounds' := hi.rounds'
  refine bindPair h.identifier fun name c₁ d₁ h₁ hlt₁ => ?_
  refine bindNear h₁.skipAnglesIfNext fun c₂ d₂ h₂ hlt₂ => ?_
  refine bindPair (InterfaceDecl.parseExtends_rel h₂ (by omega) (by omega)) fun bases c₃ d₃ h₃ hlt₃ => ?_
  refine bindLike (TypeExpr.parseObject_rel hi h₃ (by omega)) fun members members' c₄ d₄ hmembers h₄ hlt₄ => ?_
  exact .ok ⟨congrArg (fun members => (⟨name, bases, members⟩ : InterfaceDecl)) hmembers, h₄.near (by omega)⟩

/-- Tokens that are alike are spelt alike. -/
theorem Cursor.spell_like {ts us : List Token} (h : List.Forall₂ (Token.Like L) ts us) : L.Like (spell ts) (spell us) := by
  have hrest : ∀ {ts us : List Token}, List.Forall₂ (Token.Like L) ts us →
      L.Like (String.join (ts.map fun u => u.gap ++ u.text)) (String.join (us.map fun u => u.gap ++ u.text)) := by
    intro ts us h
    induction h with
    | nil => exact L.refl _
    | cons hlike _ ih =>
      rw [List.map_cons, List.map_cons, String.join_cons, String.join_cons]
      exact L.append (L.append hlike.gap hlike.text) ih
  cases h with
  | nil => exact L.refl _
  | cons hlike h => exact L.append hlike.text (hrest h)

/-- The text that an initializer stands for is the same but for what is not seen. -/
theorem EnumMember.parseValue_rel (h : Alike L P c d) :
    Parsed.Rel P (fun x y => L.see x.1 = L.see y.1 ∧ Near L P (c.ahead.length + 1) x.2 y.2) (EnumMember.parseValue c)
      (EnumMember.parseValue d) := by
  have hlater := h.skipExpr
  have htokens : List.Forall₂ (Token.Like L) (c.upTo c.skipExpr) (d.upTo d.skipExpr) := by
    rw [Cursor.upTo, Cursor.upTo, ← h.length_eq, ← hlater.1.length_eq]
    exact List.forall₂_take _ h.ahead
  simp only [EnumMember.parseValue]
  generalize c.upTo c.skipExpr = ts, d.upTo d.skipExpr = us at htokens ⊢
  match htokens with
  | .nil => exact h.fails _
  | .cons (a := t) (b := u) hlike .nil =>
    refine .ok ⟨?_, hlater⟩
    dsimp only
    rw [← hlike.stringValue?_congr]
    cases t.stringValue? with
    | none => exact L.see_eq hlike.text
    | some s => rfl
  | .cons hlike (.cons hlike' hmore) => exact .ok ⟨L.see_eq (spell_like (.cons hlike (.cons hlike' hmore))), hlater⟩

theorem EnumMember.value?_rel (h : Alike L P c d) :
    Parsed.Rel P (fun x y => x.1.map L.see = y.1.map L.see ∧ Near L P (c.ahead.length + 1) x.2 y.2) (EnumMember.value? c)
      (EnumMember.value? d) := by
  unfold EnumMember.value?
  rcases h.eat? "=" with ⟨hc, hd⟩ | ⟨c₁, d₁, hc, hd, h₁, hlt₁⟩ <;> simp only [hc, hd]
  · exact .ok ⟨rfl, h.near (Nat.lt_succ_self _)⟩
  · refine (EnumMember.parseValue_rel h₁).map ?_
    rintro ⟨v, c₂⟩ ⟨v', d₂⟩ ⟨hv, hnear⟩
    exact ⟨congrArg some hv, hnear.mono (by omega)⟩

/-- Every member takes a token, so the rounds never run out. -/
theorem EnumDecl.parseMembers_rel (h : Alike L P c d) (hn : c.ahead.length < n) (hm : c.ahead.length < m) :
    Parsed.Rel P (NearLike L P (c.ahead.length + 1)) (EnumDecl.parseMembers n c) (EnumDecl.parseMembers m d) := by
  induction n generalizing m c d with
  | zero => omega
  | succ n ih =>
    obtain ⟨m, rfl⟩ : ∃ p, m = p + 1 := ⟨m - 1, by omega⟩
    simp only [EnumDecl.parseMembers, h.nextIs]
    refine rel_ite (fun _ => .ok ⟨rfl, h.near (Nat.lt_succ_self _)⟩) fun _ => ?_
    refine bindPair h.propertyKey fun key c₁ d₁ h₁ hlt₁ => ?_
    cases key with
    | none => exact h₁.fails _
    | some key =>
      refine (EnumMember.value?_rel h₁).bind ?_
      rintro ⟨value, c₂⟩ ⟨value', d₂⟩ ⟨hvalue, h₂, hlt₂⟩
      dsimp only at hvalue h₂ hlt₂ ⊢
      rcases h₂.eat? "," with ⟨hc, hd⟩ | ⟨c₃, d₃, hc, hd, h₃, hlt₃⟩ <;> simp only [hc, hd]
      · exact .ok ⟨congrArg (fun value => [(⟨key, value⟩ : EnumMember)]) hvalue, h₂.near (by omega)⟩
      · refine bindLike (ih h₃ (by omega) (by omega)) fun more more' c₄ d₄ hmore h₄ hlt₄ => ?_
        exact .ok ⟨congrArg₂ (fun value more => (⟨key, value⟩ : EnumMember) :: more) hvalue hmore, h₄.near (by omega)⟩

theorem EnumDecl.parse_rel (h : Alike L P c d) (hn : c.ahead.length ≤ n) (hm : c.ahead.length ≤ m) :
    Parsed.Rel P (NearLike L P c.ahead.length) (EnumDecl.parse n c) (EnumDecl.parse m d) := by
  refine bindPair h.identifier fun name c₁ d₁ h₁ hlt₁ => ?_
  refine bindNear (h₁.expect _) fun c₂ d₂ h₂ hlt₂ => ?_
  refine bindLike (EnumDecl.parseMembers_rel h₂ (by omega) (by omega)) fun members members' c₃ d₃ hmembers h₃ hlt₃ => ?_
  refine bindNear (h₃.expect _) fun c₄ d₄ h₄ hlt₄ => ?_
  exact .ok ⟨congrArg (fun members => (⟨name, members⟩ : EnumDecl)) hmembers, h₄.near (by omega)⟩

/-! ## Exports -/

theorem ExportSpecifier.parseName_rel (h : Alike L P c d) :
    Parsed.Rel P (NearPair L P c.ahead.length) (ExportSpecifier.parseName c) (ExportSpecifier.parseName d) := by
  have hvalue : d.peek?.bind (·.stringValue?) = c.peek?.bind (·.stringValue?) :=
    h.bind_peek? fun _ _ hlike => hlike.stringValue?_congr
  simp only [ExportSpecifier.parseName, hvalue]
  cases hs : c.peek?.bind (·.stringValue?) with
  | none => exact h.identifier
  | some s =>
    obtain ⟨t, ht, -⟩ := Option.bind_eq_some_iff.mp hs
    have hne : c.ahead ≠ [] := by
      intro hnil
      simp [peek?, hnil] at ht
    exact .ok ⟨rfl, h.next_near hne⟩

theorem ExportSpecifier.skipType_near (h : Alike L P c d) :
    Near L P (c.ahead.length + 1) (ExportSpecifier.skipType c) (ExportSpecifier.skipType d) := by
  simp only [ExportSpecifier.skipType, h.nextIsIdent, h.nthIs, h.nthIsIdent]
  exact rel_ite (fun _ => ⟨h.next, Nat.lt_succ_of_le length_next_le⟩) fun _ => h.near (Nat.lt_succ_self _)

theorem ExportSpecifier.parseRename_rel (localName : String) (h : Alike L P c d) :
    Parsed.Rel P (NearPair L P (c.ahead.length + 1)) (ExportSpecifier.parseRename localName c)
      (ExportSpecifier.parseRename localName d) := by
  unfold ExportSpecifier.parseRename
  rcases h.eatIdent? "as" with ⟨hc, hd⟩ | ⟨c₁, d₁, hc, hd, h₁, hlt₁⟩ <;> simp only [hc, hd]
  · exact .ok ⟨rfl, h.near (Nat.lt_succ_self _)⟩
  · exact widen (ExportSpecifier.parseName_rel h₁) (by omega)

/-- Every entry takes a token, so the rounds never run out. -/
theorem ExportSpecifier.parseRest_rel (h : Alike L P c d) (hn : c.ahead.length < n) (hm : c.ahead.length < m) :
    Parsed.Rel P (NearPair L P (c.ahead.length + 1)) (ExportSpecifier.parseRest n c) (ExportSpecifier.parseRest m d) := by
  induction n generalizing m c d with
  | zero => omega
  | succ n ih =>
    obtain ⟨m, rfl⟩ : ∃ p, m = p + 1 := ⟨m - 1, by omega⟩
    simp only [ExportSpecifier.parseRest, h.nextIs]
    refine rel_ite (fun _ => .ok ⟨rfl, h.near (Nat.lt_succ_self _)⟩) fun _ => ?_
    obtain ⟨h₁, hlt₁⟩ := ExportSpecifier.skipType_near h
    refine bindPair (ExportSpecifier.parseName_rel h₁) fun localName c₂ d₂ h₂ hlt₂ => ?_
    refine bindPair (ExportSpecifier.parseRename_rel localName h₂) fun exportedName c₃ d₃ h₃ hlt₃ => ?_
    rcases h₃.eat? "," with ⟨hc, hd⟩ | ⟨c₄, d₄, hc, hd, h₄, hlt₄⟩ <;> simp only [hc, hd]
    · exact .ok ⟨rfl, h₃.near (by omega)⟩
    · refine bindPair (ih h₄ (by omega) (by omega)) fun more c₅ d₅ h₅ hlt₅ => ?_
      exact .ok ⟨rfl, h₅.near (by omega)⟩

theorem ExportSpecifier.parseList_rel (h : Alike L P c d) (hn : c.ahead.length ≤ n) (hm : c.ahead.length ≤ m) :
    Parsed.Rel P (NearLike L P c.ahead.length) (ExportSpecifier.parseList n c) (ExportSpecifier.parseList m d) := by
  refine bindNear (h.expect _) fun c₁ d₁ h₁ hlt₁ => ?_
  refine bindPair (ExportSpecifier.parseRest_rel h₁ (by omega) (by omega)) fun specifiers c₂ d₂ h₂ hlt₂ => ?_
  refine bindNear (h₂.expect _) fun c₃ d₃ h₃ hlt₃ => ?_
  rcases h₃.eatIdent? "from" with ⟨hc, hd⟩ | ⟨c₄, d₄, hc, hd, h₄, hlt₄⟩ <;> simp only [hc, hd]
  · exact .ok ⟨rfl, (h₃.skip ";").mono (by omega)⟩
  · have hsource : d₄.peek?.bind (·.stringValue?) = c₄.peek?.bind (·.stringValue?) :=
      h₄.bind_peek? fun _ _ hlike => hlike.stringValue?_congr
    have hle := length_next_le (c := c₄)
    exact .ok ⟨by rw [hsource], (h₄.next.skip ";").mono (by omega)⟩

namespace Item

theorem beginsFunction_eq (h : Alike L P c d) : beginsFunction d = beginsFunction c := by
  simp only [beginsFunction, h.nextIsIdent, h.nthIsIdent]

theorem reword_variables {f : String → String} {vs vs' : List VariableDecl} (h : reword f vs = reword f vs') :
    reword f (vs.map Item.variable) = reword f (vs'.map Item.variable) := by
  have hmap : ∀ vs : List VariableDecl, reword f (vs.map Item.variable) = (reword f vs).map Item.variable := fun vs => by
    induction vs with
    | nil => rfl
    | cons v vs ih => rw [List.map_cons, reword_cons, ih, reword_cons]; rfl
  rw [hmap, hmap, h]

/-- A declaration takes its word at least. -/
theorem parseWord_rel (hi : Inner.Rel L P k i j) (exported : ExportKind) (name : String) (h : Alike L P c d)
    (hk : c.ahead.length ≤ k) (hne : c.ahead ≠ []) :
    Parsed.Rel P (NearLike L P c.ahead.length) (parseWord i exported name c) (parseWord j exported name d) := by
  have hrounds := hi.rounds
  have hrounds' := hi.rounds'
  obtain ⟨h₁, hlt₁⟩ := h.next_near hne
  have hle := length_next_le (c := c.next)
  simp only [parseWord, beginsFunction_eq h, h.nthIsIdent, h.nthIsKind, h.nthIs]
  refine rel_ite (fun _ => ?_) fun _ => rel_ite (fun _ => ?_) fun _ => rel_ite (fun _ => ?_) fun _ => ?_
  · exact mapLike (FunctionDecl.parse_rel hi exported h hk) fun f f' c₁ d₁ hf h₁ hlt₁ =>
      ⟨congrArg (fun f => [function f]) hf, h₁, hlt₁⟩
  · exact mapLike (EnumDecl.parse_rel h₁.next (by omega) (by omega)) fun e e' c₂ d₂ he h₂ hlt₂ =>
      ⟨congrArg (fun e => [enum e]) he, h₂.near (by omega)⟩
  · exact mapLike (VariableDecl.parseRest_rel hi exported h₁ (by omega) (by omega) (by omega))
      fun vs vs' c₂ d₂ hvs h₂ hlt₂ => ⟨reword_variables hvs, (h₂.skip ";").mono (by omega)⟩
  refine rel_ite (fun _ => ?_) fun _ => rel_ite (fun _ => ?_) fun _ => rel_ite (fun _ => ?_) fun _ => ?_
  · exact mapLike (AliasDecl.parse_rel hi h₁ (by omega)) fun a a' c₂ d₂ ha h₂ hlt₂ =>
      ⟨congrArg (fun a => [Item.alias a]) ha, h₂.near (by omega)⟩
  · exact mapLike (InterfaceDecl.parse_rel hi h₁ (by omega)) fun i i' c₂ d₂ hi h₂ hlt₂ =>
      ⟨congrArg (fun i => [interface i]) hi, h₂.near (by omega)⟩
  · exact mapLike (EnumDecl.parse_rel h₁ (by omega) (by omega)) fun e e' c₂ d₂ he h₂ hlt₂ =>
      ⟨congrArg (fun e => [enum e]) he, h₂.near (by omega)⟩
  refine rel_ite (fun _ => ?_) fun _ => .ok ⟨rfl, h.skipStatement hne⟩
  exact h.skipClass.map fun c₁ d₁ hnear => ⟨rfl, hnear⟩

theorem parseDeclaration_of_nil (exported : ExportKind) (hnil : c.ahead = []) :
    parseDeclaration i exported c = .ok ([], c) := by
  simp [parseDeclaration, skipIdent, eatIdent?, nextIsIdent, nthIsIdent, peekAt?, peek?, hnil]

/-- A declaration takes a token, unless none is left. -/
theorem parseDeclaration_rel (hi : Inner.Rel L P k i j) (exported : ExportKind) (h : Alike L P c d)
    (hk : c.ahead.length ≤ k) (hne : c.ahead ≠ []) :
    Parsed.Rel P (NearLike L P c.ahead.length) (parseDeclaration i exported c) (parseDeclaration j exported d) := by
  have hdeclare := h.skipIdent "declare"
  -- either `declare` has been passed, or the place is still the same and a token is left there
  have hleft : (c.skipIdent "declare").ahead = [] → (c.skipIdent "declare").ahead.length < c.ahead.length := by
    intro hnil
    rw [hnil]
    exact List.length_pos_iff.mpr hne
  simp only [parseDeclaration]
  generalize c.skipIdent "declare" = c₁ at hdeclare hleft
  generalize d.skipIdent "declare" = d₁ at hdeclare
  obtain ⟨h₁, hlt₁⟩ := hdeclare
  rcases h₁.cases with ⟨hc, hd⟩ | ⟨t, r, u, s, hc, hd, hlike⟩
  · simp only [peek?, hc, hd, List.head?_nil]
    exact .ok ⟨rfl, h₁, hleft hc⟩
  · have hne₁ : c₁.ahead ≠ [] := by simp [hc]
    simp only [peek?, hc, hd, List.head?_cons, ← hlike.kind]
    refine rel_ite (fun hkind => ?_) fun _ => ?_
    · rw [← hlike.flat (by rw [hkind]; rfl)]
      exact widenLike (parseWord_rel hi exported _ h₁ (by omega) hne₁) (by omega)
    · exact .ok ⟨rfl, (h₁.skipStatement hne₁).mono (by omega)⟩

theorem parseDefault_rel (hi : Inner.Rel L P k i j) (h : Alike L P c d) (hk : c.ahead.length < k) :
    Parsed.Rel P (NearLike L P (c.ahead.length + 1)) (parseDefault i c) (parseDefault j d) := by
  simp only [parseDefault, beginsFunction_eq h, h.nextIsIdent]
  refine rel_ite (fun _ => ?_) fun _ => rel_ite (fun _ => ?_) fun _ => rel_ite (fun hnext => ?_) fun _ => ?_
  · exact mapLike (FunctionDecl.parse_rel hi .default h (by omega)) fun f f' c₁ d₁ hf h₁ hlt₁ =>
      ⟨congrArg (fun f => [function f]) hf, h₁.near (by omega)⟩
  · exact h.skipClass.map fun c₁ d₁ hnear => ⟨rfl, hnear.mono (by omega)⟩
  · exact widenLike (parseDeclaration_rel hi .default h (by omega) (ne_nil_of_nextIsIdent hnext)) (by omega)
  · exact mapLike (hi.expr h hk) fun e e' c₁ d₁ he h₁ hlt₁ =>
      ⟨congrArg (fun e => [exportDefault e]) he, (h₁.skip ";").mono (by omega)⟩

/-- What follows `export` is read one level below it. -/
theorem parseExport_rel (hi : Inner.Rel L P k i j) (h : Alike L P c d) (hk : c.ahead.length < k) :
    Parsed.Rel P (NearLike L P (c.ahead.length + 1)) (parseExport i c) (parseExport j d) := by
  have hrounds := hi.rounds
  have hrounds' := hi.rounds'
  unfold parseExport
  rcases h.eatIdent? "default" with ⟨hc, hd⟩ | ⟨c₁, d₁, hc, hd, h₁, hlt₁⟩ <;> simp only [hc, hd]
  · simp only [h.nextIs, h.nextIsIdent, h.nthIs]
    refine rel_ite (fun hnext => ?_) fun _ => ?_
    · have hne : c.ahead ≠ [] := by
        rcases Bool.or_eq_true_iff.mp hnext with hnext | hnext
        · rcases Bool.or_eq_true_iff.mp hnext with hnext | hnext <;> exact ne_nil_of_nextIs hnext
        · exact ne_nil_of_nextIsIdent hnext
      exact .ok ⟨rfl, (h.skipStatement hne).mono (by omega)⟩
    · have htype : Near L P (c.ahead.length + 1) (if c.nextIsIdent "type" && c.nthIs 1 "\x7b" then c.next else c)
          (if c.nextIsIdent "type" && c.nthIs 1 "\x7b" then d.next else d) :=
        rel_ite (fun _ => ⟨h.next, Nat.lt_succ_of_le length_next_le⟩) fun _ => h.near (Nat.lt_succ_self _)
      generalize (if c.nextIsIdent "type" && c.nthIs 1 "\x7b" then c.next else c) = c₁ at htype
      generalize (if c.nextIsIdent "type" && c.nthIs 1 "\x7b" then d.next else d) = d₁ at htype
      obtain ⟨h₁, hlt₁⟩ := htype
      rw [h₁.nextIs]
      refine rel_ite (fun _ => ?_) fun _ => ?_
      · exact mapLike (ExportSpecifier.parseList_rel h₁ (by omega) (by omega))
          fun item item' c₂ d₂ hitem h₂ hlt₂ => ⟨congrArg ([·]) hitem, h₂.near (by omega)⟩
      · by_cases hnil : c₁.ahead = []
        · rw [parseDeclaration_of_nil .named hnil, parseDeclaration_of_nil .named (h₁.nil_iff.mp hnil)]
          exact .ok ⟨rfl, h₁, hlt₁⟩
        · exact widenLike (parseDeclaration_rel hi .named h₁ (by omega) hnil) (by omega)
  · exact widenLike (parseDefault_rel hi h₁ (by omega)) (by omega)

/-- **An item takes a token**, over parsers for places with fewer tokens left. -/
theorem parse_rel (hi : Inner.Rel L P k i j) (h : Alike L P c d) (hk : c.ahead.length ≤ k) (hne : c.ahead ≠ []) :
    Parsed.Rel P (NearLike L P c.ahead.length) (parse i c) (parse j d) := by
  simp only [parse, h.nextIsIdent, h.nthIs]
  refine rel_ite (fun _ => ?_) fun _ => parseDeclaration_rel hi .none h hk hne
  obtain ⟨h₁, hlt₁⟩ := h.next_near hne
  exact widenLike (parseExport_rel hi h₁ (by omega)) (by omega)

/-- The same items, but for texts that are kept, are read from places that are alike. -/
theorem parseAll_rel (hi : Inner.Rel L P k i j) (h : Alike L P c d) (hk : c.ahead.length ≤ k)
    (hn : c.ahead.length < n) (hm : c.ahead.length < m) :
    Parsed.Rel P (fun items items' => reword L.see items = reword L.see items') (parseAll i n c) (parseAll j m d) := by
  induction n generalizing m c d with
  | zero => omega
  | succ n ih =>
    obtain ⟨m, rfl⟩ : ∃ p, m = p + 1 := ⟨m - 1, by omega⟩
    simp only [parseAll, h.atEnd]
    refine rel_ite (fun _ => .ok rfl) fun hend => ?_
    have hne : c.ahead ≠ [] := by simpa [Cursor.atEnd] using hend
    rcases h.eat? ";" with ⟨hc, hd⟩ | ⟨c₁, d₁, hc, hd, h₁, hlt₁⟩ <;> simp only [hc, hd]
    · refine bindLike (parse_rel hi h hk hne) fun here here' c₁ d₁ hhere h₁ hlt₁ => ?_
      refine (ih h₁ (by omega) (by omega) (by omega)).bind fun more more' hmore => ?_
      exact .ok (by rw [reword_append, reword_append, hhere, hmore])
    · exact ih h₁ (by omega) (by omega) (by omega)

end Item

/-! ## Offsets, depth and rounds -/

namespace Cursor

/-- The same is expected with the same error at both places. -/
def SameFaults (c d : Cursor) : Prop := ∀ expected, c.unexpected expected = d.unexpected expected

/-- Places with the same faces ahead and the same trace before have the same faults from there on. -/
theorem alike_of_face {c d : Cursor} (hbefore : c.before.map Token.trace = d.before.map Token.trace)
    (hahead : c.ahead.map Token.face = d.ahead.map Token.face) : Alike .exact SameFaults c d := by
  have htrace : Option.Rel (Token.TraceLike .exact) c.before d.before := by
    generalize c.before = b, d.before = b' at hbefore ⊢
    cases b with
    | none =>
      rw [Option.map_eq_none_iff.mp hbefore.symm]
      exact .none
    | some t =>
      obtain ⟨u, rfl, htrace⟩ := Option.map_eq_some_iff.mp hbefore.symm
      exact .some (Token.traceLike_of_trace htrace.symm)
  have hface : List.Forall₂ (Token.Like .exact) c.ahead d.ahead := by
    generalize c.ahead = ts, d.ahead = us at hahead ⊢
    induction ts generalizing us with
    | nil =>
      rw [List.map_eq_nil_iff.mp hahead.symm]
      exact .nil
    | cons t ts ih =>
      obtain ⟨u, us, rfl, hface, hahead⟩ := List.map_eq_cons_iff.mp hahead.symm
      exact .cons (Token.like_of_face hface.symm) (ih us hahead.symm)
  refine ⟨htrace, hface, fun n => ?_⟩
  have h : Alike .exact (fun _ _ => True) c d := ⟨htrace, hface, fun _ => trivial⟩
  clear hbefore hahead htrace hface
  induction n generalizing c d with
  | zero => exact fun expected => (h.unexpected expected).symm
  | succ n ih => exact ih h.next

end Cursor

theorem Parsed.Rel.eq {α : Type} [Reworded α] {x y : Parsed α}
    (h : Parsed.Rel SameFaults (fun a b => reword Likeness.exact.see a = reword Likeness.exact.see b) x y) : x = y := by
  cases h with
  | @ok a b hab =>
    have hab : reword id a = reword id b := hab
    rw [← reword_id a, hab, reword_id]
  | error expected hplaces => rw [hplaces expected]

/-- **Depth and rounds do not matter** as long as they are more than the tokens that are left. -/
theorem Item.parseAll_congr {c d : Cursor} {p q n m : Nat} (h : Alike .exact SameFaults c d) (hp : c.ahead.length ≤ p)
    (hq : c.ahead.length ≤ q) (hn : c.ahead.length < n) (hm : c.ahead.length < m) :
    Item.parseAll (.ofDepth p) n c = Item.parseAll (.ofDepth q) m d :=
  (Item.parseAll_rel (Inner.ofDepth_rel hp hq) h (Nat.le_refl _) hn hm).eq

/-- **Offsets do not matter** to what tokens spell. -/
theorem Module.ofTokens_congr {ts us : List Token} (h : ts.map Token.face = us.map Token.face) :
    Module.ofTokens ts = Module.ofTokens us := by
  have hlength : ts.length = us.length := by simpa using congrArg List.length h
  have halike : Alike .exact SameFaults (.start ts) (.start us) := Cursor.alike_of_face rfl h
  have hitems : Item.parseAll (.ofDepth (ts.length + 1)) (ts.length + 1) (.start ts) =
      Item.parseAll (.ofDepth (us.length + 1)) (us.length + 1) (.start us) :=
    Item.parseAll_congr halike (Nat.le_succ ts.length) (hlength ▸ Nat.le_succ ts.length) (Nat.lt_succ_self ts.length)
      (hlength ▸ Nat.lt_succ_self ts.length)
  rw [Module.ofTokens, Module.ofTokens, hitems]

end AppBundler
