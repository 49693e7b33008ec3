import AppBundler.Source.Tree
/-!
# Texts that are kept

Readers keep some texts as they are written: documentation, template literals and the initializers of enum members. Syntax
that differs in these only is the same once a function that sees no difference between the texts is applied to them.
-/

namespace AppBundler

/-- Syntax that may keep texts as they are written. -/
class Reworded (α : Type) where
  /-- The syntax with a function applied to the texts that are kept. -/
  reword : (String → String) → α → α
  reword_id : ∀ x, reword id x = x

export Reworded (reword reword_id)

attribute [simp] Reworded.reword_id

variable {α : Type} [Reworded α] {f : String → String}

instance : Reworded (List α) where
  reword f := List.map (reword f)
  reword_id l := (List.map_congr_left fun x _ => reword_id x).trans (List.map_id l)

instance : Reworded (Option α) where
  reword f := Option.map (reword f)
  reword_id o := by cases o <;> simp

/-- Keys are no texts that are kept. -/
instance : Reworded (String × α) where
  reword f p := (p.1, reword f p.2)
  reword_id p := by simp

section Containers

variable (f : String → String)

@[simp]
theorem reword_nil : reword f ([] : List α) = [] := rfl

@[simp]
theorem reword_cons (x : α) (l : List α) : reword f (x :: l) = reword f x :: reword f l := rfl

@[simp]
theorem reword_append (l l' : List α) : reword f (l ++ l') = reword f l ++ reword f l' := List.map_append

@[simp]
theorem reword_none : reword f (none : Option α) = none := rfl

@[simp]
theorem reword_some (x : α) : reword f (some x) = some (reword f x) := rfl

@[simp]
theorem reword_pair (key : String) (x : α) : reword f (key, x) = (key, reword f x) := rfl

variable {f} in
theorem cases_of_reword {l l' : List α} (h : reword f l = reword f l') :
    (l = [] ∧ l' = []) ∨ ∃ x r x' r', l = x :: r ∧ l' = x' :: r' := by
  cases l <;> cases l' <;> simp at h ⊢

theorem toList_reword (o : Option α) : (reword f o).toList = reword f o.toList := by
  cases o <;> rfl

theorem isSome_reword (o : Option α) : (reword f o).isSome = o.isSome := Option.isSome_map

end Containers

/-! ## Types -/

namespace TypeExpr

mutual

/-- The type with a function applied to the documentation in it. -/
def reworded (f : String → String) : TypeExpr → TypeExpr
  | .reference name args => .reference name (rewordedAll f args)
  | .array element => .array (element.reworded f)
  | .union ts => .union (rewordedAll f ts)
  | .intersection ts => .intersection (rewordedAll f ts)
  | .object ms => .object (rewordedMembers f ms)
  | .keyword name => .keyword name
  | .literal value => .literal value
  | .keyofTypeof name => .keyofTypeof name
  | .other => .other

/-- Some types with a function applied to the documentation in each. -/
def rewordedAll (f : String → String) : List TypeExpr → List TypeExpr
  | [] => []
  | t :: r => t.reworded f :: rewordedAll f r

/-- Some members with a function applied to the documentation of each, and in each. -/
def rewordedMembers (f : String → String) : List (MemberOf TypeExpr) → List (MemberOf TypeExpr)
  | [] => []
  | x :: r => rewordedMember f x :: rewordedMembers f r

/-- A member with a function applied to its documentation, and in its type. -/
def rewordedMember (f : String → String) : MemberOf TypeExpr → MemberOf TypeExpr
  | ⟨key, optional, type, doc, method⟩ => ⟨key, optional, rewordedOption f type, doc.map f, method⟩

/-- A type that may be missing with a function applied to the documentation in it. -/
def rewordedOption (f : String → String) : Option TypeExpr → Option TypeExpr
  | none => none
  | some t => some (t.reworded f)

end

mutual

theorem reworded_id : ∀ t : TypeExpr, t.reworded id = t
  | .reference name args => by rw [reworded, rewordedAll_id args]
  | .array element => by rw [reworded, reworded_id element]
  | .union ts => by rw [reworded, rewordedAll_id ts]
  | .intersection ts => by rw [reworded, rewordedAll_id ts]
  | .object ms => by rw [reworded, rewordedMembers_id ms]
  | .keyword _ => rfl
  | .literal _ => rfl
  | .keyofTypeof _ => rfl
  | .other => rfl

theorem rewordedAll_id : ∀ ts : List TypeExpr, rewordedAll id ts = ts
  | [] => rfl
  | t :: r => by rw [rewordedAll, reworded_id t, rewordedAll_id r]

theorem rewordedMembers_id : ∀ ms : List (MemberOf TypeExpr), rewordedMembers id ms = ms
  | [] => rfl
  | x :: r => by rw [rewordedMembers, rewordedMember_id x, rewordedMembers_id r]

theorem rewordedMember_id : ∀ x : MemberOf TypeExpr, rewordedMember id x = x
  | ⟨_, _, type, _, _⟩ => by rw [rewordedMember, rewordedOption_id type, Option.map_id_fun, id]

theorem rewordedOption_id : ∀ t : Option TypeExpr, rewordedOption id t = t
  | none => rfl
  | some t => by rw [rewordedOption, reworded_id t]

end

end TypeExpr

instance : Reworded TypeExpr where
  reword := TypeExpr.reworded
  reword_id := TypeExpr.reworded_id

instance : Reworded Member where
  reword := TypeExpr.rewordedMember
  reword_id := TypeExpr.rewordedMember_id

section Types

variable (f : String → String)

theorem TypeExpr.rewordedAll_eq (ts : List TypeExpr) : rewordedAll f ts = Reworded.reword f ts := by
  induction ts with
  | nil => rfl
  | cons t ts ih => rw [rewordedAll, ih, reword_cons]; rfl

theorem TypeExpr.rewordedMembers_eq (ms : List Member) : rewordedMembers f ms = Reworded.reword f ms := by
  induction ms with
  | nil => rfl
  | cons x ms ih => rw [rewordedMembers, ih, reword_cons]; rfl

@[simp]
theorem reword_member (key : String) (optional : Bool) (type : Option TypeExpr) (doc : Option String) (method : Bool) :
    reword f (⟨key, optional, type, doc, method⟩ : Member) = ⟨key, optional, reword f type, doc.map f, method⟩ := by
  cases type <;> rfl

@[simp]
theorem reword_reference (name : String) (args : List TypeExpr) :
    reword f (TypeExpr.reference name args) = .reference name (reword f args) :=
  congrArg (TypeExpr.reference name) (TypeExpr.rewordedAll_eq f args)

@[simp]
theorem reword_union (ts : List TypeExpr) : reword f (TypeExpr.union ts) = .union (reword f ts) :=
  congrArg TypeExpr.union (TypeExpr.rewordedAll_eq f ts)

@[simp]
theorem reword_intersection (ts : List TypeExpr) : reword f (TypeExpr.intersection ts) = .intersection (reword f ts) :=
  congrArg TypeExpr.intersection (TypeExpr.rewordedAll_eq f ts)

@[simp]
theorem reword_object (ms : List Member) : reword f (TypeExpr.object ms) = .object (reword f ms) :=
  congrArg TypeExpr.object (TypeExpr.rewordedMembers_eq f ms)

end Types

/-! ## Patterns and parameters -/

/-- Only texts themselves are kept, not those in arrays or objects, which no literal of the source is. -/
instance : Reworded Json where
  reword f
    | .string s => .string (f s)
    | v => v
  reword_id v := by cases v <;> rfl

instance : Reworded PatternProp where
  reword f p := { p with defaultLiteral := reword f p.defaultLiteral }
  reword_id p := by simp

instance : Reworded Pattern where
  reword f
    | .object props => .object (reword f props)
    | p => p
  reword_id p := by cases p <;> simp

instance : Reworded Param where
  reword f p := { p with pattern := reword f p.pattern, type := reword f p.type }
  reword_id p := by simp

instance : Reworded FunctionSig where
  reword f sig := { sig with params := reword f sig.params }
  reword_id sig := by simp

section Params

variable (f : String → String)

@[simp]
theorem reword_patternProp (key : String) (hasDefault : Bool) (literal : Option Json) :
    reword f (⟨key, hasDefault, literal⟩ : PatternProp) = ⟨key, hasDefault, reword f literal⟩ := rfl

@[simp]
theorem reword_param (pattern : Pattern) (optional : Bool) (type : Option TypeExpr) (hasDefault : Bool) :
    reword f (⟨pattern, optional, type, hasDefault⟩ : Param) = ⟨reword f pattern, optional, reword f type, hasDefault⟩ := rfl

@[simp]
theorem reword_sig (params : List Param) (isAsync : Bool) :
    reword f (⟨params, isAsync⟩ : FunctionSig) = ⟨reword f params, isAsync⟩ := rfl

end Params

/-! ## Expressions -/

namespace Expr

mutual

/-- The expression with a function applied to the texts of its literals, and in its functions. -/
def reworded (f : String → String) : Expr → Expr
  | .function sig => .function (Reworded.reword f sig)
  | .call callee args => .call (callee.reworded f) (rewordedAll f args)
  | .member inside property => .member (inside.reworded f) property
  | .ident name => .ident name
  | .object props => .object (rewordedProps f props)
  | .literal value => .literal (Reworded.reword f value)
  | .other => .other

/-- Some expressions with a function applied in each. -/
def rewordedAll (f : String → String) : List Expr → List Expr
  | [] => []
  | e :: r => e.reworded f :: rewordedAll f r

/-- The properties of an object literal with a function applied in each. -/
def rewordedProps (f : String → String) : List (String × Expr) → List (String × Expr)
  | [] => []
  | p :: r => rewordedProp f p :: rewordedProps f r

/-- A property with a function applied in its value. -/
def rewordedProp (f : String → String) : String × Expr → String × Expr
  | (key, e) => (key, e.reworded f)

end

mutual

theorem reworded_id : ∀ e : Expr, e.reworded id = e
  | .function sig => by rw [reworded, Reworded.reword_id]
  | .call callee args => by rw [reworded, reworded_id callee, rewordedAll_id args]
  | .member inside _ => by rw [reworded, reworded_id inside]
  | .ident _ => rfl
  | .object props => by rw [reworded, rewordedProps_id props]
  | .literal value => by rw [reworded, Reworded.reword_id]
  | .other => rfl

theorem rewordedAll_id : ∀ es : List Expr, rewordedAll id es = es
  | [] => rfl
  | e :: r => by rw [rewordedAll, reworded_id e, rewordedAll_id r]

theorem rewordedProps_id : ∀ props : List (String × Expr), rewordedProps id props = props
  | [] => rfl
  | p :: r => by rw [rewordedProps, rewordedProp_id p, rewordedProps_id r]

theorem rewordedProp_id : ∀ p : String × Expr, rewordedProp id p = p
  | (_, e) => by rw [rewordedProp, reworded_id e]

end

end Expr

instance : Reworded Expr where
  reword := Expr.reworded
  reword_id := Expr.reworded_id

section Exprs

variable (f : String → String)

theorem Expr.rewordedAll_eq (es : List Expr) : rewordedAll f es = Reworded.reword f es := by
  induction es with
  | nil => rfl
  | cons e es ih => rw [rewordedAll, ih, reword_cons]; rfl

theorem Expr.rewordedProps_eq (props : List (String × Expr)) : rewordedProps f props = Reworded.reword f props := by
  induction props with
  | nil => rfl
  | cons p props ih => rw [rewordedProps, rewordedProp, ih]; rfl

@[simp]
theorem reword_call (callee : Expr) (args : List Expr) :
    reword f (Expr.call callee args) = .call (reword f callee) (reword f args) :=
  congrArg (Expr.call (reword f callee)) (Expr.rewordedAll_eq f args)

@[simp]
theorem reword_exprObject (props : List (String × Expr)) : reword f (Expr.object props) = .object (reword f props) :=
  congrArg Expr.object (Expr.rewordedProps_eq f props)

theorem literal?_reword (e : Expr) : (reword f e).literal? = reword f e.literal? := by
  cases e <;> rfl

theorem bind_literal?_reword (e : Option Expr) : (reword f e).bind (·.literal?) = reword f (e.bind (·.literal?)) := by
  cases e with
  | none => rfl
  | some e => exact literal?_reword f e

end Exprs

/-! ## Declarations -/

instance : Reworded FunctionDecl where
  reword f decl := { decl with sig := reword f decl.sig }
  reword_id decl := by simp

instance : Reworded VariableDecl where
  reword f decl := { decl with type := reword f decl.type, init := reword f decl.init }
  reword_id decl := by simp

instance : Reworded AliasDecl where
  reword f decl := { decl with type := reword f decl.type }
  reword_id decl := by simp

instance : Reworded InterfaceDecl where
  reword f decl := { decl with members := reword f decl.members }
  reword_id decl := by simp

instance : Reworded EnumMember where
  reword f m := { m with value := m.value.map f }
  reword_id m := by simp

instance : Reworded EnumDecl where
  reword f decl := { decl with members := reword f decl.members }
  reword_id decl := by simp

instance : Reworded Item where
  reword f
    | .function decl => .function (reword f decl)
    | .variable decl => .variable (reword f decl)
    | .alias decl => .alias (reword f decl)
    | .interface decl => .interface (reword f decl)
    | .enum decl => .enum (reword f decl)
    | .exportNamed specifiers source => .exportNamed specifiers source
    | .exportDefault e => .exportDefault (reword f e)
  reword_id item := by cases item <;> simp

instance : Reworded Module where
  reword f m := ⟨reword f m.items⟩
  reword_id m := by simp

end AppBundler
