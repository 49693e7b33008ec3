import AppBundler.Json.Value
/-!
# Declarations of a module

Only what stands at the top of a module is kept: functions with their parameters, variables with their
initializers, types, enums and exports. Bodies of functions and classes and all other statements are left
out. Types are kept fully enough to tell the shape of a parameter; expressions as far as a name can be
followed through them.
-/

namespace AppBundler

/-- How a declaration is exported by its own modifier. -/
inductive ExportKind where
  | none
  | named
  | default
deriving DecidableEq, Inhabited

/-- A literal that stands as a type. -/
inductive LiteralType where
  | string (value : String)
  /-- As written, with its minus sign. -/
  | number (text : String)
  | bool (value : Bool)
deriving DecidableEq, Inhabited

/-- A signature in an object type or an interface whose types are of type `τ`. -/
structure MemberOf (τ : Type) where
  key : String
  optional : Bool
  type : Option τ
  /-- The body of the documentation comment before it. -/
  doc : Option String
  /-- A method is never an input. -/
  method : Bool

/-- A type expression. -/
inductive TypeExpr where
  /-- `string`, `number`, `any`, `null` and the like. -/
  | keyword (name : String)
  | literal (value : LiteralType)
  | reference (name : String) (args : List TypeExpr)
  | array (element : TypeExpr)
  | union (members : List TypeExpr)
  | intersection (members : List TypeExpr)
  | object (members : List (MemberOf TypeExpr))
  | keyofTypeof (name : String)
  /-- A type whose shape is not told: functions, tuples, mapped and conditional types. -/
  | other
deriving Inhabited

/-- A signature in an object type or an interface. -/
abbrev Member := MemberOf TypeExpr

namespace TypeExpr

/-- Whether the type is a certain keyword. -/
def isKeyword (t : TypeExpr) (name : String) : Bool :=
  match t with
  | .keyword k => k = name
  | _ => false

/-- `null`, `undefined` and `void` carry no shape. -/
def isNullish (t : TypeExpr) : Bool := t.isKeyword "null" || t.isKeyword "undefined" || t.isKeyword "void"

end TypeExpr

/-- One key of an object pattern. -/
structure PatternProp where
  key : String
  hasDefault : Bool
  /-- The default, when it is a plain literal. -/
  defaultLiteral : Option Json

/-- What a parameter binds. -/
inductive Pattern where
  | ident (name : String)
  | object (props : List PatternProp)
  | rest (name : String)
  | other

/-- A parameter of a function. -/
structure Param where
  pattern : Pattern
  optional : Bool
  type : Option TypeExpr
  hasDefault : Bool

/-- The name of a parameter that is a plain identifier. -/
def Param.name? (p : Param) : Option String :=
  match p.pattern with
  | .ident name => some name
  | .rest name => some name
  | _ => none

/-- The parameters of anything that can be called. -/
structure FunctionSig where
  params : List Param
  isAsync : Bool

/-- An expression, as far as names can be followed through it. -/
inductive Expr where
  | function (sig : FunctionSig)
  | call (callee : Expr) (args : List Expr)
  | member (object : Expr) (property : String)
  | ident (name : String)
  | object (props : List (String × Expr))
  | literal (value : Json)
  | other
deriving Inhabited

/-- The value of a plain literal. -/
def Expr.literal? : Expr → Option Json
  | .literal v => some v
  | _ => none

/-- A function declaration; only a default export may lack a name. -/
structure FunctionDecl where
  name : Option String
  sig : FunctionSig
  exported : ExportKind

/-- A variable of a `const`, `let` or `var` declaration. -/
structure VariableDecl where
  name : String
  type : Option TypeExpr
  init : Option Expr
  exported : ExportKind

/-- A type alias. -/
structure AliasDecl where
  name : String
  type : TypeExpr

/-- An interface with the names of its bases. -/
structure InterfaceDecl where
  name : String
  bases : List String
  members : List Member

/-- A member of an enum with the text of its initializer, without quotes when it is a string. -/
structure EnumMember where
  name : String
  value : Option String

/-- An enum. -/
structure EnumDecl where
  name : String
  members : List EnumMember

/-- An entry of an export list. -/
structure ExportSpecifier where
  localName : String
  exportedName : String

/-- A declaration at the top of a module. -/
inductive Item where
  | function (decl : FunctionDecl)
  | variable (decl : VariableDecl)
  | alias (decl : AliasDecl)
  | interface (decl : InterfaceDecl)
  | enum (decl : EnumDecl)
  | exportNamed (specifiers : List ExportSpecifier) (source : Option String)
  | exportDefault (expr : Expr)

/-- The declarations of a module in their order. -/
structure Module where
  items : List Item

/-- What a name of a module stands for. -/
inductive Binding where
  | function (decl : FunctionDecl)
  | variable (decl : VariableDecl)

namespace Module

/-- The first function or variable of a name. -/
def binding? (m : Module) (name : String) : Option Binding :=
  m.items.findSome? fun
    | .function f => if f.name = some name then some (.function f) else none
    | .variable v => if v.name = name then some (.variable v) else none
    | _ => none

/-- The first alias of a name. -/
def alias? (m : Module) (name : String) : Option AliasDecl :=
  m.items.findSome? fun
    | .alias a => if a.name = name then some a else none
    | _ => none

/-- All declarations of an interface; they count as one. -/
def interfaces (m : Module) (name : String) : List InterfaceDecl :=
  m.items.filterMap fun
    | .interface i => if i.name = name then some i else none
    | _ => none

/-- The first enum of a name. -/
def enum? (m : Module) (name : String) : Option EnumDecl :=
  m.items.findSome? fun
    | .enum e => if e.name = name then some e else none
    | _ => none

/-- The entries of the export lists that do not pass on another module's exports. -/
def exportSpecifiers (m : Module) : List ExportSpecifier :=
  m.items.flatMap fun
    | .exportNamed specifiers none => specifiers
    | _ => []

/-- The local name that an export list exports under a name. -/
def exportedLocal? (m : Module) (exported : String) : Option String :=
  (m.exportSpecifiers.find? fun s => s.exportedName = exported).map (·.localName)

/-- How export lists and `export default` of a name export a local name: under its own name if any entry
says so, else as the default, else not at all. -/
def listedExport (m : Module) (name : String) : ExportKind :=
  let entries := m.exportSpecifiers.filter fun s => s.localName = name
  let named := entries.any fun s => s.exportedName ≠ "default" && s.exportedName = name
  let default := entries.any (fun s => s.exportedName = "default") ||
    m.items.any fun
      | .exportDefault (.ident id) => id = name
      | _ => false
  if named then .named else if default then .default else .none

/-- How a local name is exported: by its declaration's own modifier, else by lists. -/
def exportKind (m : Module) (name : String) : ExportKind :=
  let declared := match m.binding? name with
    | some (.function f) => f.exported
    | some (.variable v) => v.exported
    | none => ExportKind.none
  if declared = .none then m.listedExport name else declared

end Module

end AppBundler
