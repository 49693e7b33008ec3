import AppBundler.Proofs.Schema.Members
/-!
# Types that may be null

A type may be null when it is a union with `null`, `undefined` or `void`. What is said about null is left out when the type
is written as the union of all else that it may be. Two types are the same but for null when they are the same once the
types of properties, the elements of arrays and all other types in them but members of unions are written so, and two
modules when the targets of their aliases and the members of their interfaces are.
-/

namespace AppBundler

namespace TypeExpr

variable {t t' : TypeExpr} {ts : List TypeExpr}

/-- What a type may be other than null. -/
def alternatives : TypeExpr → List TypeExpr
  | .union ts => withoutNullish ts
  | t => [t]

/-- Whether a type is a union. -/
def isUnion : TypeExpr → Bool
  | .union _ => true
  | _ => false

mutual

/-- The type with what is said about null left out of the types in it. -/
def cleared : TypeExpr → TypeExpr
  | .reference name args => .reference name (coreAll args)
  | .array element => .array (.union element.cleared.alternatives)
  | .union ts => .union (clearedAll ts)
  | .intersection ts => .intersection (coreAll ts)
  | .object ms => .object (coreMembers ms)
  | .keyword name => .keyword name
  | .literal value => .literal value
  | .keyofTypeof name => .keyofTypeof name
  | .other => .other

/-- Some types with what is said about null left out of the types in each. -/
def clearedAll : List TypeExpr → List TypeExpr
  | [] => []
  | t :: r => t.cleared :: clearedAll r

/-- Some types with what is said about null left out of each. -/
def coreAll : List TypeExpr → List TypeExpr
  | [] => []
  | t :: r => .union t.cleared.alternatives :: coreAll r

/-- Some members with what is said about null left out of their types. -/
def coreMembers : List (MemberOf TypeExpr) → List (MemberOf TypeExpr)
  | [] => []
  | x :: r => coreMember x :: coreMembers r

/-- A member with what is said about null left out of its type. -/
def coreMember : MemberOf TypeExpr → MemberOf TypeExpr
  | ⟨key, optional, type, doc, method⟩ => ⟨key, optional, coreOption type, doc, method⟩

/-- A type that may be missing with what is said about null left out. -/
def coreOption : Option TypeExpr → Option TypeExpr
  | none => none
  | some t => some (.union t.cleared.alternatives)

end

/-- The type with what is said about null left out of it and of the types in it. -/
def core (t : TypeExpr) : TypeExpr := .union t.cleared.alternatives

end TypeExpr

/-- The member with what is said about null left out of its type. -/
def Member.core (x : Member) : Member := { x with type := x.type.map TypeExpr.core }

namespace TypeExpr

variable {t t' : TypeExpr} {ts : List TypeExpr}

theorem clearedAll_eq_map (ts : List TypeExpr) : clearedAll ts = ts.map cleared := by
  induction ts with
  | nil => rfl
  | cons t ts ih => rw [clearedAll, ih, List.map_cons]

theorem coreAll_eq_map (ts : List TypeExpr) : coreAll ts = ts.map core := by
  induction ts with
  | nil => rfl
  | cons t ts ih => rw [coreAll, ih, List.map_cons, core]

theorem coreMember_eq (x : Member) : coreMember x = Member.core x := by
  obtain ⟨key, optional, type, doc, method⟩ := x
  cases type <;> rfl

theorem coreMembers_eq_map (ms : List Member) : coreMembers ms = ms.map Member.core := by
  induction ms with
  | nil => rfl
  | cons x ms ih => rw [coreMembers, ih, List.map_cons, coreMember_eq]

@[simp]
theorem isNullish_cleared (t : TypeExpr) : t.cleared.isNullish = t.isNullish := by
  cases t <;> rfl

@[simp]
theorem stringLiteral?_cleared (t : TypeExpr) : t.cleared.stringLiteral? = t.stringLiteral? := by
  cases t <;> rfl

theorem alternatives_of_not_union (h : t.isUnion = false) : t.alternatives = [t] := by
  cases t with
  | union ts => cases h
  | _ => rfl

theorem alternatives_cleared (t : TypeExpr) : t.cleared.alternatives = t.alternatives.map cleared := by
  cases t with
  | union ts =>
    rw [cleared, clearedAll_eq_map, alternatives, alternatives, withoutNullish, withoutNullish, List.filter_map]
    exact congrArg (List.map cleared) (List.filter_congr fun t _ => by simp)
  | _ => rfl

theorem core_eq (t : TypeExpr) : t.core = .union (t.alternatives.map cleared) := by
  rw [core, alternatives_cleared]

/-- Types are the same but for null when what they may be other than null is. -/
theorem core_eq_core_iff : t.core = t'.core ↔ t.alternatives.map cleared = t'.alternatives.map cleared := by
  rw [core_eq, core_eq, union.injEq]

theorem core_eq_of_cleared (h : t.cleared = t'.cleared) : t.core = t'.core := by
  rw [core, h, ← core]

theorem cleared_eq_of_core (ht : t.isUnion = false) (ht' : t'.isUnion = false) (h : t.core = t'.core) :
    t.cleared = t'.cleared := by
  rw [core_eq_core_iff, alternatives_of_not_union ht, alternatives_of_not_union ht'] at h
  exact List.singleton_inj.mp h

/-- **A type that is made nullable** by a union with more members is the same but for null. -/
theorem core_union (h : withoutNullish ts = t.alternatives) : (union ts).core = t.core := by
  rw [core_eq_core_iff, ← h]
  rfl

/-- A union that is the same but for null as a type that is none is that type and null. -/
theorem exists_of_core_union (ht : t.isUnion = false) (h : (union ts).core = t.core) :
    ∃ only, withoutNullish ts = [only] ∧ only.cleared = t.cleared := by
  rw [core_eq_core_iff, alternatives_of_not_union ht] at h
  exact List.map_eq_singleton_iff.mp h

/-! ## One step into a type -/

/-- Two types of one form, whose parts are the same but for null. Only members of a union that are not null count, and they
are of one form themselves. -/
inductive SameForm : TypeExpr → TypeExpr → Prop
  | keyword (name : String) : SameForm (.keyword name) (.keyword name)
  | literal (value : LiteralType) : SameForm (.literal value) (.literal value)
  | keyofTypeof (name : String) : SameForm (.keyofTypeof name) (.keyofTypeof name)
  | other : SameForm .other .other
  | reference (name : String) {args args' : List TypeExpr} (h : args.map core = args'.map core) :
    SameForm (.reference name args) (.reference name args')
  | array {element element' : TypeExpr} (h : element.core = element'.core) : SameForm (.array element) (.array element')
  | union {ts ts' : List TypeExpr} (h : (withoutNullish ts).map cleared = (withoutNullish ts').map cleared) :
    SameForm (.union ts) (.union ts')
  | intersection {ts ts' : List TypeExpr} (h : ts.map core = ts'.map core) : SameForm (.intersection ts) (.intersection ts')
  | object {ms ms' : List Member} (h : ms.map Member.core = ms'.map Member.core) : SameForm (.object ms) (.object ms')

theorem sameForm_of_cleared (hunion : t.isUnion = false) (h : t.cleared = t'.cleared) : SameForm t t' := by
  cases t <;> cases t' <;> simp only [cleared, reduceCtorEq, keyword.injEq, literal.injEq, keyofTypeof.injEq,
    reference.injEq, array.injEq, intersection.injEq, object.injEq, coreAll_eq_map, coreMembers_eq_map] at h
  case keyword.keyword name _ => exact h ▸ .keyword name
  case literal.literal value _ => exact h ▸ .literal value
  case keyofTypeof.keyofTypeof name _ => exact h ▸ .keyofTypeof name
  case other.other => exact .other
  case reference.reference name _ _ _ =>
    obtain ⟨rfl, hargs⟩ := h
    exact .reference name hargs
  case array.array => exact .array h
  case intersection.intersection => exact .intersection h
  case object.object => exact .object h
  case union.union => cases hunion

theorem sameForm_of_core (hunion : t.isUnion = t'.isUnion) (h : t.core = t'.core) : SameForm t t' := by
  cases ht : t.isUnion with
  | false => exact sameForm_of_cleared ht (cleared_eq_of_core ht (hunion ▸ ht) h)
  | true =>
    rw [ht] at hunion
    cases t with
    | union ts =>
      cases t' with
      | union ts' => exact .union (core_eq_core_iff.mp h)
      | _ => cases hunion
    | _ => cases ht

end TypeExpr

/-! ## Members and modules -/

namespace Member

variable {into ms : List Member}

theorem put_core (x : Member) (ms : List Member) : (put x ms).map core = put x.core (ms.map core) := by
  induction ms with
  | nil => rfl
  | cons y ms ih =>
    have hkey : (y.core.key = x.core.key) = (y.key = x.key) := rfl
    simp only [put, List.map_cons, hkey]
    split
    · rfl
    · rw [List.map_cons, ih]

theorem merge_core : (merge into ms).map core = merge (into.map core) (ms.map core) := by
  induction ms generalizing into with
  | nil => rfl
  | cons x ms ih =>
    have hput : (merge (put x into) ms).map core = merge ((put x into).map core) (ms.map core) := ih
    rw [put_core] at hput
    exact hput

theorem fields_core (ms : List Member) : (fields ms).map core = fields (ms.map core) := by
  rw [fields, fields, List.filter_map]
  rfl

theorem withOptional_core (optional : Bool) (ms : List Member) :
    (withOptional optional ms).map core = withOptional optional (ms.map core) := by
  rw [withOptional, withOptional, List.map_map, List.map_map]
  rfl

end Member

/-- The alias with what is said about null left out of its target. -/
def AliasDecl.core (decl : AliasDecl) : AliasDecl := { decl with type := decl.type.core }

/-- The interface with what is said about null left out of the types of its members. -/
def InterfaceDecl.core (decl : InterfaceDecl) : InterfaceDecl := { decl with members := decl.members.map Member.core }

/-- The declaration with what is said about null left out of the types that it names. -/
def Item.core : Item → Item
  | .alias decl => .alias decl.core
  | .interface decl => .interface decl.core
  | item => item

namespace Module

variable {m m' : Module} {name : String}

/-- The module with what is said about null left out of its aliases and interfaces. -/
def core (m : Module) : Module := ⟨m.items.map Item.core⟩

theorem alias?_core (m : Module) (name : String) : m.core.alias? name = (m.alias? name).map AliasDecl.core := by
  rw [alias?, alias?, core, List.findSome?_map, List.map_findSome?]
  congr 1
  funext item
  cases item with
  | «alias» decl => by_cases hname : decl.name = name <;> simp [Item.core, AliasDecl.core, hname]
  | _ => rfl

theorem interfaces_core (m : Module) (name : String) :
    m.core.interfaces name = (m.interfaces name).map InterfaceDecl.core := by
  rw [interfaces, interfaces, core, List.filterMap_map, List.map_filterMap]
  congr 1
  funext item
  cases item with
  | interface decl => by_cases hname : decl.name = name <;> simp [Item.core, InterfaceDecl.core, hname]
  | _ => rfl

theorem enum?_core (m : Module) (name : String) : m.core.enum? name = m.enum? name := by
  rw [enum?, enum?, core, List.findSome?_map]
  congr 1
  funext item
  cases item <;> rfl

theorem binding?_core (m : Module) (name : String) : m.core.binding? name = m.binding? name := by
  rw [binding?, binding?, core, List.findSome?_map]
  congr 1
  funext item
  cases item <;> rfl

/-- Modules that are the same but for null have the same aliases, with targets that are the same but for null. -/
theorem alias?_cases (hm : m.core = m'.core) (name : String) : (m.alias? name = none ∧ m'.alias? name = none) ∨
    ∃ decl decl', m.alias? name = some decl ∧ m'.alias? name = some decl' ∧ decl.type.core = decl'.type.core := by
  have halias : (m.alias? name).map AliasDecl.core = (m'.alias? name).map AliasDecl.core := by
    rw [← alias?_core, ← alias?_core, hm]
  cases h : m.alias? name with
  | none =>
    rw [h] at halias
    exact Or.inl ⟨rfl, Option.map_eq_none_iff.mp halias.symm⟩
  | some decl =>
    rw [h] at halias
    obtain ⟨decl', h', hdecl⟩ := Option.map_eq_some_iff.mp halias.symm
    exact Or.inr ⟨decl, decl', rfl, h', congrArg AliasDecl.type hdecl.symm⟩

/-- They have the same interfaces, with members that are the same but for null. -/
theorem interfaces_cases (hm : m.core = m'.core) (name : String) : (m.interfaces name = [] ∧ m'.interfaces name = []) ∨
    ∃ decl decls decl' decls', m.interfaces name = decl :: decls ∧ m'.interfaces name = decl' :: decls' ∧
      (decl :: decls).map InterfaceDecl.core = (decl' :: decls').map InterfaceDecl.core := by
  have hinterfaces : (m.interfaces name).map InterfaceDecl.core = (m'.interfaces name).map InterfaceDecl.core := by
    rw [← interfaces_core, ← interfaces_core, hm]
  cases h : m.interfaces name with
  | nil =>
    rw [h] at hinterfaces
    exact Or.inl ⟨rfl, List.map_eq_nil_iff.mp hinterfaces.symm⟩
  | cons decl decls =>
    rw [h] at hinterfaces
    obtain ⟨decl', decls', h', -⟩ := List.map_eq_cons_iff.mp hinterfaces.symm
    exact Or.inr ⟨decl, decls, decl', decls', rfl, h', h' ▸ hinterfaces⟩

theorem enum?_eq (hm : m.core = m'.core) (name : String) : m.enum? name = m'.enum? name := by
  rw [← m.enum?_core, ← m'.enum?_core, hm]

theorem binding?_eq (hm : m.core = m'.core) (name : String) : m.binding? name = m'.binding? name := by
  rw [← m.binding?_core, ← m'.binding?_core, hm]

/-- The aliases of two modules that stand for a lone string literal are the same. -/
def LiteralAliases (m m' : Module) : Prop :=
  ∀ name decl decl', m.alias? name = some decl → m'.alias? name = some decl' →
    decl.type.stringLiteral? = decl'.type.stringLiteral?

end Module

end AppBundler
