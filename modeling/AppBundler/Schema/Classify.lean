import AppBundler.Schema.Node
import AppBundler.Source.Tree
/-!
# From types to nodes

Names of aliases and interfaces are followed through the module. The names that are being followed are kept
on a stack, and a name that is met again inside its own definition is not told. That alone does not make every
classification end: an intersection is classified after the names in it have been let go, so a type can lead
back to itself. Every function therefore has a depth, and has no answer when the depth does not suffice.
-/

namespace AppBundler

namespace Member

/-- The members that hold data; methods carry no input. -/
def fields (ms : List Member) : List Member := ms.filter fun m => !m.method

/-- Makes every member optional, or none. -/
def withOptional (optional : Bool) (ms : List Member) : List Member :=
  ms.map fun m => { m with optional := optional }

/-- Adds a member; one with the same key is replaced in its place. -/
def put (m : Member) : List Member → List Member
  | [] => [m]
  | x :: r => if x.key = m.key then m :: r else x :: put m r

/-- Adds members one after another. -/
def merge (into : List Member) (ms : List Member) : List Member := ms.foldl (fun acc m => put m acc) into

end Member

namespace TypeExpr

/-- The members of a union that carry a shape. -/
def withoutNullish (ts : List TypeExpr) : List TypeExpr := ts.filter fun t => !t.isNullish

/-- The text of a literal string type. -/
def stringLiteral? : TypeExpr → Option String
  | .literal (.string s) => some s
  | _ => none

mutual

/-- The type and the types in it. -/
def within : TypeExpr → List TypeExpr
  | .reference name args => .reference name args :: withinAll args
  | .array element => .array element :: element.within
  | .union ts => .union ts :: withinAll ts
  | .intersection ts => .intersection ts :: withinAll ts
  | .object ms => .object ms :: withinMembers ms
  | .keyword name => [.keyword name]
  | .literal value => [.literal value]
  | .keyofTypeof name => [.keyofTypeof name]
  | .other => [.other]

/-- Some types and the types in them. -/
def withinAll : List TypeExpr → List TypeExpr
  | [] => []
  | t :: r => t.within ++ withinAll r

/-- The types in the types of members. -/
def withinMembers : List (MemberOf TypeExpr) → List TypeExpr
  | [] => []
  | x :: r => withinMember x ++ withinMembers r

/-- The types in the type of a member. -/
def withinMember : MemberOf TypeExpr → List TypeExpr
  | ⟨_, _, type, _, _⟩ => withinOption type

/-- The types in a type that may be missing. -/
def withinOption : Option TypeExpr → List TypeExpr
  | none => []
  | some t => t.within

end

end TypeExpr

/-! ## Enough depth

A classification that ends never meets the same type inside the same names twice on its way down. The names
that it is inside of only become more, and the types are among those that the module declares, so the
product of the two counts bounds its depth. -/

namespace Module

/-- The types that the aliases and interfaces of a module name, with the types in them. -/
def declaredTypes (m : Module) : List TypeExpr :=
  m.items.flatMap fun
    | .alias decl => decl.type.within
    | .interface decl => decl.bases.map (.reference · []) ++ TypeExpr.withinMembers decl.members
    | _ => []

/-- A depth that suffices for a type in a module. -/
def depthFor (m : Module) (t : TypeExpr) : Nat :=
  (m.items.length + 1) * (m.declaredTypes.length + t.within.length + 2)

end Module

namespace Classify

/-- A classification inside the definitions of some names, which may have no answer. -/
abbrev Resolving := StateT (List String) Option

/-- Goes on inside the definition of a name, but not when it is being followed already. -/
def guarded {α : Type} (name : String) (otherwise : α) (inside : Resolving α) : Resolving α := do
  if (← get).contains name then
    return otherwise
  modify (name :: ·)
  let answer ← inside
  modify List.tail
  return answer

/-! ## Members of object types -/

/-- Merges the members of several types; one without members leaves the whole without. -/
def mergeParts (members : TypeExpr → Resolving (Option (List Member))) (acc : List Member) :
    List TypeExpr → Resolving (Option (List Member))
  | [] => return some acc
  | t :: r => do
    match ← members t with
    | none => return none
    | some ms => mergeParts members (Member.merge acc ms) r

/-- Merges the members of the bases of an interface; a base without members counts for nothing. -/
def mergeBases (members : TypeExpr → Resolving (Option (List Member))) (acc : List Member) :
    List String → Resolving (List Member)
  | [] => return acc
  | base :: r => do
    match ← members (.reference base []) with
    | none => mergeBases members acc r
    | some ms => mergeBases members (Member.merge acc ms) r

/-- The members of the declarations of an interface: those of its bases, overridden by its own, and those of
each declaration overridden by the next. -/
def mergeInterfaces (members : TypeExpr → Resolving (Option (List Member))) (acc : List Member) :
    List InterfaceDecl → Resolving (List Member)
  | [] => return acc
  | decl :: r => do
    let inherited ← mergeBases members acc decl.bases
    mergeInterfaces members (Member.merge inherited (Member.fields decl.members)) r

/-- The members of the alias or the interface of a name. -/
def namedMembers (m : Module) (members : TypeExpr → Resolving (Option (List Member))) (name : String) :
    Resolving (Option (List Member)) :=
  match m.alias? name with
  | some decl => guarded name none (members decl.type)
  | none =>
    match m.interfaces name with
    | [] => return none
    | decls => guarded name none (some <$> mergeInterfaces members [] decls)

/-- What a utility type makes of the members of its argument. -/
def utility? (name : String) : Option (List Member → List Member) :=
  if name = "Partial" then some (Member.withOptional true)
  else if name = "Required" then some (Member.withOptional false)
  else if name = "Readonly" || name = "NonNullable" then some id
  else none

/-- The members of an object type in declared order. A type that is not an object type, or does not lead to
one, has none. -/
def membersOf (m : Module) : (depth : Nat) → TypeExpr → Resolving (Option (List Member))
  | 0, _ => failure
  | n + 1, t =>
    match t with
    | .object ms => return some (Member.fields ms)
    | .intersection ts => mergeParts (membersOf m n) [] ts
    | .union ts =>
      match TypeExpr.withoutNullish ts with
      | [only] => membersOf m n only
      | _ => return none
    | .reference name args =>
      match utility? name, args with
      | some adapted, [arg] => Option.map adapted <$> membersOf m n arg
      | _, _ => namedMembers m (membersOf m n) name
    | _ => return none

/-- The members of an object type, looked up as deep as they can be. -/
def objectMembers (m : Module) (t : TypeExpr) : Resolving (Option (List Member)) := membersOf m (m.depthFor t) t

/-! ## Nodes -/

/-- The node of a keyword. -/
def keywordNode (name : String) : Node :=
  if name = "string" then .primitive .string none
  else if name = "number" || name = "bigint" then .primitive .number none
  else if name = "boolean" then .primitive .boolean none
  else if name = "any" then .any
  else .unknown

/-- The node of a literal type. -/
def literalNode : LiteralType → Node
  | .string s => .primitive .string (some s)
  | .number s => .primitive .number (some s)
  | .bool b => .primitive .boolean (some (if b then "true" else "false"))

/-- The values of an enum. -/
def enumNode (decl : EnumDecl) : Node :=
  .enum (decl.members.map fun m =>
    match m.value with
    | some value => .keyed m.name value
    | none => .name m.name)

/-- The keys of the enum, or else of the object literal, that a name stands for. -/
def keysNode (m : Module) (name : String) : Node :=
  match m.enum? name with
  | some decl => .enum (decl.members.map fun e => .name e.name)
  | none =>
    match m.binding? name with
    | some (.variable ⟨_, _, some (.object props), _⟩) => .enum (props.map fun p => .name p.1)
    | _ => .unknown

/-- Whether a type stands for free text as the type of a property: a union of several string literals does. -/
def isFreeText : TypeExpr → Bool
  | .union ts =>
    let ts := TypeExpr.withoutNullish ts
    1 < ts.length && ts.all fun t => t.stringLiteral?.isSome
  | _ => false

/-- The node of a property's type. -/
def propertyNode (node : TypeExpr → Resolving Node) (t : TypeExpr) : Resolving Node :=
  if isFreeText t then return .primitive .string none else node t

/-- The node of a member: one without a type allows everything. -/
def memberNode (node : TypeExpr → Resolving Node) (x : Member) : Resolving Node :=
  match x.type with
  | some t => propertyNode node t
  | none => return .any

/-- The node of an object with some members. -/
def objectNode (node : TypeExpr → Resolving Node) (ms : List Member) : Resolving Node :=
  Node.object <$> (Member.fields ms).mapM fun x => Prod.mk x.key <$> memberNode node x

/-- The node of an array: the members of a union of several are told one by one. -/
def arrayNode (node : TypeExpr → Resolving Node) (element : TypeExpr) : Resolving Node :=
  match element with
  | .union ts =>
    match TypeExpr.withoutNullish ts with
    | [] => Node.array <$> node element
    | [only] => Node.array <$> node only
    | several => Node.unionArray <$> several.mapM node
  | _ => Node.array <$> node element

/-- The node of a union: a single member with a shape stands for itself. -/
def unionNode (node : TypeExpr → Resolving Node) (ts : List TypeExpr) : Resolving Node :=
  match TypeExpr.withoutNullish ts with
  | [] => return .unknown
  | [only] => node only
  | several => Node.union <$> several.mapM node

/-- The literals of a union of string literals. -/
def literals? : TypeExpr → Option (List String)
  | .union ts => ((TypeExpr.withoutNullish ts).mapM TypeExpr.stringLiteral?).filter fun texts => !texts.isEmpty
  | _ => none

/-- The node of an alias: a union of string literals is an enum. -/
def aliasNode (node : TypeExpr → Resolving Node) (t : TypeExpr) : Resolving Node :=
  match literals? t with
  | some texts => return .enum (texts.map .name)
  | none => node t

/-- What a name stands for that needs no declaration. -/
inductive BuiltIn where
  | array (element : TypeExpr)
  | known (node : Node)
  /-- A utility type, which does not change the node of its argument. -/
  | same (arg : TypeExpr)

/-- The built-in type of a name. -/
def builtIn? (name : String) (args : List TypeExpr) : Option BuiltIn :=
  if name = "Date" then some (.known (.primitive .date none))
  else if name = "File" || name = "Blob" then some (.known (.primitive .file none))
  else
    match args with
    | [arg] =>
      if name = "Array" || name = "ReadonlyArray" then some (.array arg)
      else if (utility? name).isSome then some (.same arg)
      else none
    | _ => none

/-- The node of the alias, the interface or the enum of a name. -/
def namedNode (m : Module) (node : TypeExpr → Resolving Node) (name : String) : Resolving Node :=
  match m.alias? name with
  | some decl => guarded name .unknown (aliasNode node decl.type)
  | none =>
    match m.interfaces name with
    | [] =>
      match m.enum? name with
      | some decl => return enumNode decl
      | none => return .unknown
    | decls => guarded name .unknown (mergeInterfaces (objectMembers m) [] decls >>= objectNode node)

/-- The node of a type. -/
def nodeOf (m : Module) : (depth : Nat) → TypeExpr → Resolving Node
  | 0, _ => failure
  | n + 1, t =>
    match t with
    | .keyword name => return keywordNode name
    | .literal value => return literalNode value
    | .array element => arrayNode (nodeOf m n) element
    | .union ts => unionNode (nodeOf m n) ts
    | .object ms => objectNode (nodeOf m n) ms
    | .intersection ts => do
      match ← objectMembers m (.intersection ts) with
      | none => return .unknown
      | some ms => objectNode (nodeOf m n) ms
    | .reference name args =>
      match builtIn? name args with
      | some (.array element) => arrayNode (nodeOf m n) element
      | some (.known node) => return node
      | some (.same arg) => nodeOf m n arg
      | none => namedNode m (nodeOf m n) name
    | .keyofTypeof name => return keysNode m name
    | .other => return .unknown

end Classify

namespace Module

/-- The members of an object type; `none` when looking them up does not end. -/
def membersOf (m : Module) (t : TypeExpr) : Option (Option (List Member)) :=
  (Classify.objectMembers m t).run' []

/-- The node of a type; `none` when its classification does not end. -/
def nodeOf (m : Module) (t : TypeExpr) : Option Node := (Classify.nodeOf m (m.depthFor t) t).run' []

/-- The node of a property's type; `none` when its classification does not end. -/
def propertyNodeOf (m : Module) (t : TypeExpr) : Option Node :=
  (Classify.propertyNode (Classify.nodeOf m (m.depthFor t)) t).run' []

end Module

end AppBundler
