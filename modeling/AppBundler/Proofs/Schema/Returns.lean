import AppBundler.Proofs.Schema.Rewording
import AppBundler.Proofs.Source.Returns.Tokens
import AppBundler.Proofs.Source.Tree.Items
import AppBundler.Schema.Extract
/-!
# Schemas and carriage returns

A script and the same script with a carriage return before every line feed have the same schema, but for such carriage
returns in defaults and in the values of enums, or extractions from both fail alike. Of the texts that readers keep only
documentation is read itself, line by line, so modules that are the same but for carriage returns in kept texts have schemas
that are. One thing tells line ends apart: a string literal may go on in the next line behind a backslash, and with a carriage
return between the two it may not.
-/

namespace AppBundler

open Text

variable {f : String → String}

/-! ## Ends of names -/

namespace Chase

instance {α : Type} [Reworded α] : Reworded (Step α) where
  reword f
    | .found value => .found (reword f value)
    | .deadEnd => .deadEnd
    | .goOn name => .goOn name
  reword_id s := by cases s <;> simp

variable (f)

/-- Names are followed alike when each step is. -/
theorem follow_reword {α : Type} [Reworded α] {step step' : String → Step α} (h : ∀ name, step' name = reword f (step name))
    (n : Nat) (visited : List String) (name : String) :
    follow step' n visited name = reword f (follow step n visited name) := by
  induction n generalizing visited name with
  | zero => rfl
  | succ n ih =>
    rw [follow, follow, h]
    split
    · rfl
    · cases step name with
      | goOn next => exact ih _ next
      | _ => rfl

theorem passedOn_reword (e : Expr) : (reword f e).passedOn = reword f e.passedOn := by
  induction e using Expr.passedOn.induct with
  | case1 callee first rest ih => simpa [Expr.passedOn] using ih
  | case2 callee => rfl
  | case3 e hsome hnone =>
    cases e with
    | call callee args =>
      cases args with
      | nil => rfl
      | cons first rest => exact absurd rfl (hsome callee first rest)
    | _ => rfl

theorem functionStepOf_reword (e : Expr) : functionStepOf (reword f e) = reword f (functionStepOf e) := by
  rw [functionStepOf, functionStepOf, passedOn_reword]
  cases e.passedOn with
  | none => rfl
  | some e => cases e <;> rfl

theorem objectStepOf_reword (e : Expr) : objectStepOf (reword f e) = reword f (objectStepOf e) := by
  rw [objectStepOf, objectStepOf, passedOn_reword]
  cases e.passedOn with
  | none => rfl
  | some e =>
    cases e with
    | object props =>
      rw [reword_some, reword_exprObject]
      rfl
    | _ => rfl

variable (m : Module) (name : String)

theorem functionStep_reword : functionStep (reword f m) name = reword f (functionStep m name) := by
  rw [functionStep, functionStep, Module.binding?_reword]
  rcases m.binding? name with _ | _ | ⟨_, _, _ | e, _⟩
  · rfl
  · rfl
  · rfl
  · exact functionStepOf_reword f e

theorem objectStep_reword : objectStep (reword f m) name = reword f (objectStep m name) := by
  rw [objectStep, objectStep, Module.binding?_reword]
  rcases m.binding? name with _ | _ | ⟨_, _, _ | e, _⟩
  · rfl
  · rfl
  · rfl
  · exact objectStepOf_reword f e

end Chase

namespace Module

variable (f) (m : Module) (name : String)

theorem resolveFunction_reword : (reword f m).resolveFunction name = reword f (m.resolveFunction name) := by
  rw [resolveFunction, resolveFunction, stepLimit, length_items_reword]
  exact Chase.follow_reword f (Chase.functionStep_reword f m) _ [] name

theorem resolveObject_reword : (reword f m).resolveObject name = reword f (m.resolveObject name) := by
  rw [resolveObject, resolveObject, stepLimit, length_items_reword]
  exact Chase.follow_reword f (Chase.objectStep_reword f m) _ [] name

theorem resolveExpr_reword (e : Expr) : (reword f m).resolveExpr (reword f e) = reword f (m.resolveExpr e) := by
  rw [resolveExpr, resolveExpr, Chase.functionStepOf_reword]
  cases Chase.functionStepOf e with
  | goOn next => exact resolveFunction_reword f m next
  | _ => rfl

/-! ## Exports -/

theorem any_items_reword {q : Item → Bool} (h : ∀ item, q (reword f item) = q item) :
    (reword f m).items.any q = m.items.any q :=
  List.any_map.trans (congrArg (List.any m.items) (funext h))

theorem listedExport_reword : (reword f m).listedExport name = m.listedExport name := by
  rw [listedExport, listedExport, exportSpecifiers_reword, any_items_reword]
  intro item
  cases item with
  | exportDefault e => cases e <;> rfl
  | _ => rfl

theorem exportKind_reword : (reword f m).exportKind name = m.exportKind name := by
  rw [exportKind, exportKind, binding?_reword, listedExport_reword]
  rcases m.binding? name with _ | _ | _ <;> rfl

theorem exportedLocal?_reword : (reword f m).exportedLocal? name = m.exportedLocal? name := by
  rw [exportedLocal?, exportedLocal?, exportSpecifiers_reword]

end Module

namespace Extract

theorem rootName?_reword (f : String → String) (m : Module) (name : String) (strict : Bool) :
    rootName? (reword f m) name strict = rootName? m name strict := by
  rw [rootName?, rootName?, Module.binding?_reword, Module.exportedLocal?_reword, Module.exportKind_reword]
  cases m.binding? name <;> rfl

/-! ## Inputs -/

section Congruence

variable {α β : Type} [Reworded α] [Reworded β]

theorem bind_congr {x x' : Extracted α} {g g' : α → Extracted β} (hx : reword f x = reword f x')
    (hg : ∀ a a', reword f a = reword f a' → reword f (g a) = reword f (g' a')) :
    reword f (x >>= g) = reword f (x' >>= g') := by
  cases x <;> cases x' <;> simp only [reword_ok, reword_error, Except.ok.injEq, Except.error.injEq, reduceCtorEq] at hx
  · rw [hx]
    rfl
  · exact hg _ _ hx

theorem bind_congr_right {γ : Type} (x : Extracted γ) {g g' : γ → Extracted β} (hg : ∀ a, reword f (g a) = reword f (g' a)) :
    reword f (x >>= g) = reword f (x >>= g') := by
  cases x with
  | error e => rfl
  | ok a => exact hg a

theorem map_congr {x x' : Extracted α} {g g' : α → β} (hx : reword f x = reword f x')
    (hg : ∀ a a', reword f a = reword f a' → reword f (g a) = reword f (g' a')) :
    reword f (x.map g) = reword f (x'.map g') := by
  cases x <;> cases x' <;> simp only [reword_ok, reword_error, Except.ok.injEq, Except.error.injEq, reduceCtorEq] at hx
  · rw [hx]
    rfl
  · exact congrArg Except.ok (hg _ _ hx)

theorem bind?_congr {o o' : Option α} {g g' : α → Option β} (ho : reword f o = reword f o')
    (hg : ∀ a a', reword f a = reword f a' → reword f (g a) = reword f (g' a')) :
    reword f (o.bind g) = reword f (o'.bind g') := by
  cases o <;> cases o' <;> simp only [reword_none, reword_some, Option.some.injEq, reduceCtorEq] at ho
  · rfl
  · exact hg _ _ ho

/-- Chases that are told alike end alike. -/
theorem end_cases {found found' : Except NameCycle (Option α)} (h : reword f found = reword f found') :
    (∃ c, found = .error c ∧ found' = .error c) ∨ (found = .ok none ∧ found' = .ok none) ∨
      ∃ a a', found = .ok (some a) ∧ found' = .ok (some a') ∧ reword f a = reword f a' := by
  rcases found with c | _ | a <;> rcases found' with c' | _ | a' <;> simp only [reword_ok, reword_error, reword_none,
    reword_some, Except.ok.injEq, Except.error.injEq, Option.some.injEq, reduceCtorEq] at h
  · exact .inl ⟨c, rfl, by rw [h]⟩
  · exact .inr (.inl ⟨rfl, rfl⟩)
  · exact .inr (.inr ⟨a, a', rfl, rfl, h⟩)

theorem mapM?_congr {l l' : List α} {g g' : α → Option β} (hl : reword f l = reword f l')
    (hg : ∀ a a', reword f a = reword f a' → reword f (g a) = reword f (g' a')) :
    reword f (l.mapM g) = reword f (l'.mapM g') := by
  induction l generalizing l' with
  | nil =>
    cases l' with
    | nil => rfl
    | cons => cases hl
  | cons a l ih =>
    cases l' with
    | nil => cases hl
    | cons a' l' =>
      obtain ⟨ha, hl⟩ := List.cons.inj hl
      rw [List.mapM_cons, List.mapM_cons]
      refine bind?_congr (hg a a' ha) fun b b' hb => bind?_congr (ih hl) fun bs bs' hbs => ?_
      change some (reword f (b :: bs)) = some (reword f (b' :: bs'))
      rw [reword_cons, reword_cons, hb, hbs]

end Congruence

theorem propOf?_reword (f : String → String) (p : Pattern) (key : String) : propOf? (reword f p) key = reword f (propOf? p key) := by
  cases p with
  | object props =>
    change List.find? _ (props.map (reword f)).reverse = Option.map (reword f) (List.find? _ props.reverse)
    rw [← List.map_reverse, List.find?_map]
    rfl
  | _ => rfl

/-- The input of a key, once its node is known. -/
def inputFrom (key : String) (optional : Bool) (prop : Option PatternProp) (doc : Doc) (node : Node) : Input :=
  ⟨key, node, optional || prop.any (·.hasDefault), doc.name, doc.description,
    doc.default.or (prop.bind (·.defaultLiteral))⟩

theorem inputOf_eq (m : Module) (p : Pattern) (x : Member) : inputOf m p x =
    (x.type.elim (some .any) m.propertyNodeOf).bind fun node =>
      some (inputFrom x.key x.optional (propOf? p x.key) (x.doc.elim .none Doc.parse) node) := by
  rw [inputOf]
  cases x.type <;> rfl

theorem inputFrom_congr {prop prop' : Option PatternProp} {node node' : Node} (hprop : reword f prop = reword f prop')
    (hnode : reword f node = reword f node') (key : String) (optional : Bool) (doc : Doc) :
    reword f (inputFrom key optional prop doc node) = reword f (inputFrom key optional prop' doc node') := by
  have hsame : prop.any (·.hasDefault) = prop'.any (·.hasDefault) ∧
      reword f (prop.bind (·.defaultLiteral)) = reword f (prop'.bind (·.defaultLiteral)) := by
    cases prop <;> cases prop' <;> simp only [reword_none, reword_some, Option.some.injEq, reduceCtorEq] at hprop
    · exact ⟨rfl, rfl⟩
    · exact ⟨(congrArg PatternProp.hasDefault hprop :), (congrArg PatternProp.defaultLiteral hprop :)⟩
  have hvalue : reword f (doc.default.or (prop.bind (·.defaultLiteral))) =
      reword f (doc.default.or (prop'.bind (·.defaultLiteral))) := by
    cases doc.default with
    | none => exact hsame.2
    | some value => rfl
  have hreword (prop : Option PatternProp) (node : Node) : reword f (inputFrom key optional prop doc node) =
      ⟨key, reword f node, optional || prop.any (·.hasDefault), doc.name, doc.description,
        reword f (doc.default.or (prop.bind (·.defaultLiteral)))⟩ := rfl
  rw [hreword, hreword, hnode, hsame.1, hvalue]

theorem untypedInputs_reword (f : String → String) (p : Param) (name : String) (strict : Bool) :
    untypedInputs (reword f p) name strict = reword f (untypedInputs p name strict) := by
  obtain ⟨pattern, optional, type, hasDefault⟩ := p
  cases pattern with
  | object props =>
    refine congrArg Except.ok ?_
    change (props.map (reword f)).map _ = (props.map _).map (reword f)
    rw [List.map_map, List.map_map]
    rfl
  | other => cases strict <;> rfl
  | _ => rfl

theorem isUnused_reword (f : String → String) (p : Param) : isUnused (reword f p) = isUnused p := by
  obtain ⟨pattern, optional, type, hasDefault⟩ := p
  cases pattern <;> rfl

variable {m m' : Module} (hm : reword f m = reword f m') (hdoc : ∀ body, Doc.parse (f body) = Doc.parse body)
include hm

theorem propertyNodeOf_congr {t t' : TypeExpr} (ht : reword f t = reword f t') :
    reword f (m.propertyNodeOf t) = reword f (m'.propertyNodeOf t') := by
  rw [← Module.propertyNodeOf_reword, ← Module.propertyNodeOf_reword, hm, ht]

include hdoc

theorem inputOf_congr {p p' : Pattern} (hp : reword f p = reword f p') (x x' : Member) (hx : reword f x = reword f x') :
    reword f (inputOf m p x) = reword f (inputOf m' p' x') := by
  obtain ⟨key, optional, type, doc, method⟩ := x
  obtain ⟨key', optional', type', doc', method'⟩ := x'
  simp only [reword_member, MemberOf.mk.injEq] at hx
  obtain ⟨rfl, rfl, htype, hdocs, rfl⟩ := hx
  have hprop : reword f (propOf? p key) = reword f (propOf? p' key) := by
    rw [← propOf?_reword, ← propOf?_reword, hp]
  have hparsed : doc.elim .none Doc.parse = doc'.elim .none Doc.parse := by
    have hsame (d : Option String) : (d.map f).elim .none Doc.parse = d.elim .none Doc.parse := by
      cases d with
      | none => rfl
      | some body => exact hdoc body
    rw [← hsame doc, hdocs, hsame]
  have hinput (node node' : Node) (hnode : reword f node = reword f node') :
      reword f (some (inputFrom key optional (propOf? p key) (doc.elim .none Doc.parse) node)) =
        reword f (some (inputFrom key optional (propOf? p' key) (doc'.elim .none Doc.parse) node')) := by
    rw [hparsed]
    exact congrArg some (inputFrom_congr hprop hnode key optional _)
  have hnode : reword f (type.elim (some .any) m.propertyNodeOf) = reword f (type'.elim (some .any) m'.propertyNodeOf) := by
    cases type <;> cases type' <;> simp only [reword_none, reword_some, Option.some.injEq, reduceCtorEq] at htype
    · rfl
    · exact propertyNodeOf_congr hm htype
  rw [inputOf_eq, inputOf_eq]
  exact bind?_congr hnode hinput

theorem typedInputs_congr {p p' : Param} (hp : reword f p = reword f p') {t t' : TypeExpr} (ht : reword f t = reword f t')
    (name : String) (strict : Bool) : reword f (typedInputs m p t name strict) = reword f (typedInputs m' p' t' name strict) := by
  have hmembers : reword f (m.membersOf t) = reword f (m'.membersOf t') := by
    rw [← Module.membersOf_reword, ← Module.membersOf_reword, hm, ht]
  have hpattern : reword f p.pattern = reword f p'.pattern := congrArg Param.pattern hp
  rw [typedInputs, typedInputs]
  generalize m.membersOf t = found, m'.membersOf t' = found' at hmembers ⊢
  rcases found with _ | _ | ms <;> rcases found' with _ | _ | ms' <;>
    simp only [reword_none, reword_some, Option.some.injEq, reduceCtorEq] at hmembers
  · rfl
  · cases strict <;> rfl
  · have hinputs := mapM?_congr hmembers (inputOf_congr hm hdoc hpattern)
    dsimp only
    generalize ms.mapM (inputOf m p.pattern) = inputs, ms'.mapM (inputOf m' p'.pattern) = inputs' at hinputs ⊢
    cases inputs <;> cases inputs' <;> simp only [reword_none, reword_some, Option.some.injEq, reduceCtorEq] at hinputs
    · rfl
    · exact congrArg Except.ok hinputs

theorem inputsOf_congr (sig sig' : FunctionSig) (hsig : reword f sig = reword f sig') (name : String) (strict : Bool) :
    reword f (inputsOf m sig name strict) = reword f (inputsOf m' sig' name strict) := by
  have hparams : reword f sig.params = reword f sig'.params := congrArg FunctionSig.params hsig
  rw [inputsOf, inputsOf]
  rcases cases_of_reword hparams with ⟨hps, hps'⟩ | ⟨p, ps, p', ps', hps, hps'⟩
  · rw [hps, hps']
  · rw [hps, hps'] at hparams ⊢
    have hp : reword f p = reword f p' := (List.cons.inj hparams).1
    have htype : reword f p.type = reword f p'.type := congrArg Param.type hp
    have huntyped : reword f (untypedInputs p name strict) = reword f (untypedInputs p' name strict) := by
      rw [← untypedInputs_reword, ← untypedInputs_reword, hp]
    dsimp only
    rw [← isUnused_reword f p, hp, isUnused_reword]
    split
    · rfl
    · generalize p.type = type, p'.type = type' at htype ⊢
      cases type <;> cases type' <;> simp only [reword_none, reword_some, Option.some.injEq, reduceCtorEq] at htype
      · exact huntyped
      case some.some t t' =>
        dsimp only
        rw [← TypeExpr.isKeyword_reword f t, htype, TypeExpr.isKeyword_reword]
        split
        · exact huntyped
        · exact typedInputs_congr hm hdoc hp htype name strict

/-! ## Handlers and actions -/

omit hdoc in
theorem rootName?_congr (name : String) (strict : Bool) : rootName? m name strict = rootName? m' name strict := by
  rw [← rootName?_reword f m, hm, rootName?_reword]

omit hm hdoc in
theorem putSorted_reword {α : Type} [Reworded α] (key : String) (a : α) (map : List (String × α)) :
    putSorted key (reword f a) (reword f map) = reword f (putSorted key a map) := by
  induction map with
  | nil => rfl
  | cons p map ih =>
    obtain ⟨k, v⟩ := p
    rw [reword_cons, reword_pair, putSorted, putSorted, ih]
    split_ifs <;> rfl

theorem handler_congr (strict : Bool) : reword f (handler m strict) = reword f (handler m' strict) := by
  rw [handler, handler, rootName?_congr hm]
  refine bind_congr_right _ fun root? => ?_
  cases root? with
  | none => rfl
  | some root =>
    have hfound : reword f (m.resolveFunction root) = reword f (m'.resolveFunction root) := by
      rw [← Module.resolveFunction_reword, ← Module.resolveFunction_reword, hm]
    rcases end_cases hfound with ⟨c, h, h'⟩ | ⟨h, h'⟩ | ⟨sig, sig', h, h', hsig⟩ <;> simp only [h, h']
    exact map_congr (inputsOf_congr hm hdoc sig sig' hsig handlerExport strict) fun _ _ => congrArg some

theorem actionOf_congr (key : String) (value value' : Expr) (hvalue : reword f value = reword f value') (strict : Bool) :
    reword f (actionOf m strict key value) = reword f (actionOf m' strict key value') := by
  have hfound : reword f (m.resolveExpr value) = reword f (m'.resolveExpr value') := by
    rw [← Module.resolveExpr_reword, ← Module.resolveExpr_reword, hm, hvalue]
  rw [actionOf, actionOf]
  rcases end_cases hfound with ⟨c, h, h'⟩ | ⟨h, h'⟩ | ⟨sig, sig', h, h', hsig⟩ <;> simp only [h, h']
  exact map_congr (inputsOf_congr hm hdoc sig sig' hsig _ strict) fun inputs inputs' hinputs =>
    congrArg (fun inputs => some (Action.mk key inputs)) hinputs

theorem actionsFrom_congr (strict : Bool) {map map' : List (String × Action)} (hmap : reword f map = reword f map')
    (props props' : List (String × Expr)) (hprops : reword f props = reword f props') :
    reword f (actionsFrom m strict map props) = reword f (actionsFrom m' strict map' props') := by
  induction props generalizing props' map map' with
  | nil =>
    cases props' with
    | nil => exact congrArg Except.ok hmap
    | cons => cases hprops
  | cons p props ih =>
    cases props' with
    | nil => cases hprops
    | cons p' props' =>
      obtain ⟨key, value⟩ := p
      obtain ⟨key', value'⟩ := p'
      obtain ⟨hp, hrest⟩ := List.cons.inj hprops
      obtain ⟨rfl, hvalue⟩ := Prod.mk.inj hp
      rw [actionsFrom, actionsFrom]
      refine bind_congr (actionOf_congr hm hdoc key value value' hvalue strict) fun action action' haction => ?_
      cases action <;> cases action' <;> simp only [reword_none, reword_some, Option.some.injEq, reduceCtorEq] at haction
      · exact ih hmap props' hrest
      · refine ih ?_ props' hrest
        rw [← putSorted_reword, ← putSorted_reword, haction, hmap]

theorem actions_congr (strict : Bool) : reword f (actions m strict) = reword f (actions m' strict) := by
  rw [actions, actions, rootName?_congr hm]
  refine bind_congr_right _ fun root? => ?_
  cases root? with
  | none => rfl
  | some root =>
    have hfound : reword f (m.resolveObject root) = reword f (m'.resolveObject root) := by
      rw [← Module.resolveObject_reword, ← Module.resolveObject_reword, hm]
    rcases end_cases hfound with ⟨c, h, h'⟩ | ⟨h, h'⟩ | ⟨props, props', h, h', hprops⟩ <;> simp only [h, h']
    refine bind_congr (actionsFrom_congr hm hdoc strict rfl props props' hprops) fun map map' hmap => ?_
    rcases cases_of_reword hmap with ⟨rfl, rfl⟩ | ⟨_, _, _, _, rfl, rfl⟩
    · rfl
    · exact congrArg (fun map => Except.ok (some map)) hmap

end Extract

/-- **Schemas of modules that are reworded alike** are reworded alike, when documentation says the same reworded. -/
theorem ScriptSchema.ofModule_congr {m m' : Module} (hm : reword f m = reword f m')
    (hdoc : ∀ body, Doc.parse (f body) = Doc.parse body) (strict : Bool) :
    reword f (ofModule m strict) = reword f (ofModule m' strict) := by
  refine Extract.bind_congr (Extract.handler_congr hm hdoc strict) fun handler handler' hhandler => ?_
  refine Extract.bind_congr (Extract.actions_congr hm hdoc strict) fun actions actions' hactions => ?_
  change Except.ok (ScriptSchema.mk (reword f handler) (reword f actions)) = Except.ok ⟨reword f handler', reword f actions'⟩
  rw [hhandler, hactions]

/-! ## Reading -/

section Reading

variable {L : Likeness} {ts us : List Token} {source source' : String}

/-- Errors of the same kind on the same line. The texts that were found are taken for the same; where none was found, the
column behind the last token depends on what the token is written like. -/
inductive SyntaxError.Alike (L : Likeness) : SyntaxError → SyntaxError → Prop where
  | same (e : SyntaxError) : Alike L e e
  | found (expected : Expectation) {s t : String} (line column : Nat) (h : L.Like s t) :
    Alike L ⟨.unexpected expected (some s), line, column⟩ ⟨.unexpected expected (some t), line, column⟩
  | atEnd (expected : Expectation) (line column column' : Nat) :
    Alike L ⟨.unexpected expected none, line, column⟩ ⟨.unexpected expected none, line, column'⟩

theorem Cursor.Alike.unexpected_alike {P : Cursor → Cursor → Prop} {c d : Cursor} (h : Alike L P c d)
    (expected : Expectation) : SyntaxError.Alike L (c.unexpected expected) (d.unexpected expected) := by
  rcases h.cases with ⟨hc, hd⟩ | ⟨t, r, u, s, hc, hd, hlike⟩
  · have hbefore := h.before
    simp only [Cursor.unexpected, hc, hd]
    generalize c.before = b, d.before = b' at hbefore ⊢
    cases hbefore with
    | none => exact .same _
    | some hlike =>
      simp only [hlike.start.1]
      exact .atEnd expected _ _ _
  · simp only [Cursor.unexpected, hc, hd, hlike.start.1, hlike.start.2]
    exact .found expected _ _ hlike.text

/-- At the beginnings of tokens that cannot be told apart, and from there on, errors are alike. -/
theorem Cursor.alike_start (h : List.Forall₂ (Token.Like L) ts us) :
    Cursor.Alike L (fun c d => ∀ expected, SyntaxError.Alike L (c.unexpected expected) (d.unexpected expected))
      (.start ts) (.start us) := by
  refine ⟨.none, h, fun n => ?_⟩
  have halike : Cursor.Alike L (fun _ _ => True) (.start ts) (.start us) := ⟨.none, h, fun _ => trivial⟩
  generalize Cursor.start ts = c, Cursor.start us = d at halike
  induction n generalizing c d with
  | zero => exact halike.unexpected_alike
  | succ n ih => exact ih _ _ halike.next

/-- Both texts are read as modules that differ in kept texts that are taken for the same, or both fail alike. -/
inductive Module.ReadAlike (L : Likeness) : Parsed Module → Parsed Module → Prop where
  | ok {m m' : Module} (h : reword L.see m = reword L.see m') : ReadAlike L (.ok m) (.ok m')
  | error {e e' : SyntaxError} (h : e.Alike L e') : ReadAlike L (.error e) (.error e')

theorem Module.ofTokens_alike (h : List.Forall₂ (Token.Like L) ts us) : ReadAlike L (ofTokens ts) (ofTokens us) := by
  have hlt : ts.length < us.length + 1 := h.length_eq ▸ Nat.lt_succ_self ts.length
  have hrel := Item.parseAll_rel (Inner.ofDepth_rel (Nat.le_succ ts.length) (Nat.le_of_lt hlt)) (Cursor.alike_start h)
    (Nat.le_refl _) (Nat.lt_succ_self ts.length) hlt
  rw [ofTokens, ofTokens]
  generalize Item.parseAll (.ofDepth (ts.length + 1)) (ts.length + 1) (.start ts) = x,
    Item.parseAll (.ofDepth (us.length + 1)) (us.length + 1) (.start us) = y at hrel
  cases hrel with
  | ok hitems => exact .ok (congrArg Module.mk hitems)
  | error expected herrors => exact .error (herrors expected)

/-- **Modules and carriage returns.** Where no escape sequence ends in a line feed, carriage returns before line feeds
change no more of a module than the texts it keeps, and no more of an error than the text that was found, or the column where
the source ended. -/
theorem Module.ofSource_alike (hst : AddsReturns source.toList source'.toList) (hs : EscapesNoFeed source.toList) :
    ReadAlike .returns (ofSource source) (ofSource source') := by
  have htokens := Lexer.tokens_alike hst hs
  rw [ofSource, ofSource, tokenize, tokenize]
  generalize Lexer.tokens source.toList = x, Lexer.tokens source'.toList = y at htokens
  cases htokens with
  | ok h => exact ofTokens_alike h
  | error e => exact .error (.same e)

end Reading

/-! ## Schemas -/

/-- Documentation is read line by line. -/
theorem Doc.parse_see (body : String) : parse (Likeness.returns.see body) = parse body := by
  have hclean (l : List Char) : cleanLine (trimEnd l) = cleanLine l := by rw [cleanLine, cleanLine, trim_trimEnd]
  have hlines : (lines (dropReturns body.toList)).map cleanLine = (lines body.toList).map cleanLine :=
    map_lines_dropReturns hclean body.toList
  have hsee : (Likeness.returns.see body).toList = dropReturns body.toList := String.toList_ofList
  rw [parse, parse, hsee, hlines]

/-- Syntax and schemas that are the same but for carriage returns before line feeds are the same when no text that is kept in
the first goes over several lines. -/
theorem eq_of_reword_see {α : Type} [Reworded α] [KeepsTexts α] {x y : α}
    (h : reword Likeness.returns.see x = reword Likeness.returns.see y) (hx : ∀ t ∈ texts x, '\n' ∉ t.toList) : x = y := by
  have hflat (t : String) (ht : '\n' ∉ t.toList) : Likeness.returns.see t = id t :=
    (congrArg String.ofList (dropReturns_of_not_mem ht)).trans String.ofList_toList
  have hsame : reword Likeness.returns.see x = x :=
    (KeepsTexts.reword_congr fun t ht => hflat t (hx t ht)).trans (reword_id x)
  have htexts : texts x = (texts y).map Likeness.returns.see := by rw [← KeepsTexts.texts_reword, ← h, hsame]
  have hy : ∀ t ∈ texts y, '\n' ∉ t.toList := by
    intro t ht hmem
    refine hx (Likeness.returns.see t) (htexts ▸ List.mem_map_of_mem ht) ?_
    change '\n' ∈ (String.ofList (dropReturns t.toList)).toList
    rwa [String.toList_ofList, mem_dropReturns]
  rw [← hsame, h]
  exact (KeepsTexts.reword_congr fun t ht => hflat t (hy t ht)).trans (reword_id y)

namespace ScriptSchema

/-- Both extractions give a schema, and the schemas are the same but for carriage returns before line feeds in defaults and
in values of enums; or both texts cannot be read, for errors of the same kind; or both fail with the same error. -/
inductive SameButReturns : Extracted ScriptSchema → Extracted ScriptSchema → Prop where
  | ok {s s' : ScriptSchema} (h : reword Likeness.returns.see s = reword Likeness.returns.see s') :
    SameButReturns (.ok s) (.ok s')
  | unreadable {e e' : SyntaxError} (h : e.Alike .returns e') :
    SameButReturns (.error (.unreadable e)) (.error (.unreadable e'))
  | error (e : ExtractError) : SameButReturns (.error e) (.error e)

theorem SameButReturns.of_reword {x y : Extracted ScriptSchema}
    (h : reword Likeness.returns.see x = reword Likeness.returns.see y) : SameButReturns x y := by
  cases x <;> cases y <;> simp only [reword_ok, reword_error, Except.ok.injEq, Except.error.injEq, reduceCtorEq] at h
  · exact h ▸ .error _
  · exact .ok h

theorem ofSource_addsReturns {source source' : String} (hst : AddsReturns source.toList source'.toList)
    (hs : EscapesNoFeed source.toList) (strict : Bool) :
    SameButReturns (ofSource source strict) (ofSource source' strict) := by
  have hread := Module.ofSource_alike hst hs
  rw [ofSource, ofSource, Extract.fromSource, Extract.fromSource, Extract.moduleOf?, Extract.moduleOf?]
  generalize Module.ofSource source = x, Module.ofSource source' = y at hread
  cases hread with
  | ok hm => exact .of_reword (ofModule_congr hm Doc.parse_see strict)
  | error he =>
    cases strict with
    | true => exact .unreadable he
    | false => exact .ok rfl

/-- **Line ends do not matter** to schemas. A text in which no backslash stands before a line feed, and the text with a
carriage return before every line feed, have schemas that are the same but for such carriage returns in defaults and in
values of enums, or their extractions fail alike. So the schemas are the same when these texts are each in one line. -/
theorem ofSource_withReturns (source : String) (strict : Bool) (hs : EscapesNoFeed source.toList) :
    SameButReturns (ofSource source strict) (ofSource (String.ofList (withReturns source.toList)) strict) ∧
      ∀ schema, ofSource source strict = .ok schema → (∀ t ∈ texts schema, '\n' ∉ t.toList) →
        ofSource (String.ofList (withReturns source.toList)) strict = .ok schema := by
  have hst : AddsReturns source.toList (String.ofList (withReturns source.toList)).toList := by
    rw [String.toList_ofList]
    exact addsReturns_withReturns source.toList
  have hsame := ofSource_addsReturns hst hs strict
  refine ⟨hsame, fun schema hschema hflat => ?_⟩
  rw [hschema] at hsame
  generalize ofSource (String.ofList (withReturns source.toList)) strict = y at hsame
  cases hsame with
  | ok h => rw [eq_of_reword_see h hflat]

/-- A script with documentation over several lines. -/
def linesScript : String :=
  "export function handler(i: \x7b\n/** How many.\n@name amount */\nn: number \x7d) \x7b\x7d\n"

/-- What is told of it. -/
def linesSchema : ScriptSchema := ⟨some [⟨"n", .primitive .number none, false, some "amount", some "How many.", none⟩], none⟩

theorem ofSource_withReturns_lines : EscapesNoFeed linesScript.toList ∧ ofSource linesScript true = .ok linesSchema ∧
    (∀ t ∈ texts linesSchema, '\n' ∉ t.toList) ∧
      SameButReturns (ofSource linesScript true) (ofSource (String.ofList (withReturns linesScript.toList)) true) ∧
        ofSource (String.ofList (withReturns linesScript.toList)) true = .ok linesSchema := by
  have hs : EscapesNoFeed linesScript.toList := by
    rw [EscapesNoFeed]
    decide +kernel
  have hread : Module.ofSource linesScript = .ok ⟨[.function ⟨some "handler", ⟨[⟨.ident "i", false, some (.object
      [⟨"n", false, some (.keyword "number"), some " How many.\n@name amount ", false⟩]), false⟩], false⟩, .named⟩]⟩ := rfl
  have hschema : ofSource linesScript true = .ok linesSchema := by
    rw [ofSource, Extract.fromSource, Extract.moduleOf?, hread]
    rfl
  have hflat : ∀ t ∈ texts linesSchema, '\n' ∉ t.toList := by decide
  obtain ⟨hsame, hequal⟩ := ofSource_withReturns linesScript true hs
  exact ⟨hs, hschema, hflat, hsame, hequal linesSchema hschema hflat⟩

/-- A script with a string literal that goes on in the next line. -/
def continuedScript : String := "const a = 'x\\\ny';\nexport function handler(i: \x7b b: string \x7d) \x7b\x7d"

/-- A script with a default of two lines. -/
def defaultScript : String := "export function handler(\x7b k = \x60x\ny\x60 \x7d) \x7b\x7d"

/-- The schema of a handler that takes `k`. -/
def ofDefault (text : String) : ScriptSchema := ⟨some [⟨"k", .any, true, none, none, some (.string text)⟩], none⟩

/-- **Carriage returns change what is told** of two scripts. A string literal does not go on in the next line when a
carriage return stands between its backslash and the line feed. A template literal keeps the carriage return as a part of a
default. -/
theorem schema_changed_by_returns :
    ('\r' ∉ continuedScript.toList ∧
      ofSource continuedScript true = .ok ⟨some [⟨"b", .primitive .string none, false, none, none, none⟩], none⟩ ∧
      ofSource (String.ofList (withReturns continuedScript.toList)) true =
        .error (.unreadable ⟨.unterminatedString, 2, 1⟩)) ∧
    '\r' ∉ defaultScript.toList ∧ ofSource defaultScript true = .ok (ofDefault "x\ny") ∧
      ofSource (String.ofList (withReturns defaultScript.toList)) true = .ok (ofDefault "x\r\ny") := by
  have hcontinued : String.ofList (withReturns continuedScript.toList) =
      "const a = 'x\\\r\ny';\r\nexport function handler(i: \x7b b: string \x7d) \x7b\x7d" := by decide +kernel
  have hdefault : String.ofList (withReturns defaultScript.toList) =
      "export function handler(\x7b k = \x60x\r\ny\x60 \x7d) \x7b\x7d" := by decide +kernel
  have hread : Module.ofSource continuedScript = .ok ⟨[.variable ⟨"a", none, some (.literal (.string "xy")), .none⟩,
      .function ⟨some "handler", ⟨[⟨.ident "i", false, some (.object [⟨"b", false, some (.keyword "string"), none, false⟩]),
        false⟩], false⟩, .named⟩]⟩ := rfl
  have hfails : Module.ofSource "const a = 'x\\\r\ny';\r\nexport function handler(i: \x7b b: string \x7d) \x7b\x7d" =
      .error ⟨.unterminatedString, 2, 1⟩ := rfl
  rw [hcontinued, hdefault]
  refine ⟨⟨by decide +kernel, ?_, ?_⟩, by decide +kernel, rfl, rfl⟩
  · rw [ofSource, Extract.fromSource, Extract.moduleOf?, hread]
    rfl
  · rw [ofSource, Extract.fromSource, Extract.moduleOf?, hfails]
    rfl

end ScriptSchema

end AppBundler
