import AppBundler.Schema.Chase
import AppBundler.Schema.Classify
import AppBundler.Schema.Doc
import AppBundler.Source.Tree.Items
/-!
# Extracting schemas

The export `handler` of a script is followed to a function, whose first parameter tells the inputs; the
export `actions` to an object literal, each of whose values is followed to a function in turn. A strict
extraction reports what cannot be told. A lenient one takes it as unknown and goes on.
-/

namespace AppBundler

/-- What is wrong with the way a name is exported. -/
inductive ShapeFault where
  | defaultExport
  | notExported
deriving DecidableEq

/-- Why the inputs of a callable cannot be told. -/
inductive ResolutionFault where
  | notAFunction
  | notAnObject
  | notAnObjectType
  | patternNotEnumerable
deriving DecidableEq

/-- Why an extraction failed. -/
inductive ExtractError where
  | unreadable (error : SyntaxError)
  | exportShape (name : String) (fault : ShapeFault)
  | resolution (name : String) (fault : ResolutionFault)
  | cycle (cycle : NameCycle)
  /-- The classification of a type does not end. -/
  | endlessType (name : String)

/-- The wording of a fault. -/
def ShapeFault.message : ShapeFault → String
  | .defaultExport => "must be a named export, not the default export"
  | .notExported => "is declared but not exported"

/-- The wording of a fault. -/
def ResolutionFault.message : ResolutionFault → String
  | .notAFunction => "does not resolve to a function"
  | .notAnObject => "is not an object literal"
  | .notAnObjectType => "parameter type is not an object type"
  | .patternNotEnumerable => "parameter pattern cannot be enumerated"

/-- The wording of an error. -/
def ExtractError.message : ExtractError → String
  | .unreadable e => "syntax error: " ++ e.message
  | .exportShape name fault => "`" ++ name ++ "` " ++ fault.message
  | .resolution name fault => "cannot resolve input properties of `" ++ name ++ "`: " ++ fault.message
  | .cycle c => "`" ++ c.name ++ "` resolves to itself through `" ++ " -> ".intercalate c.chain ++ "`"
  | .endlessType name => "type of `" ++ name ++ "` refers to itself without end"

/-- The outcome of an extraction. -/
abbrev Extracted := Except ExtractError

namespace Extract

/-- The exported names that carry schemas. -/
def handlerExport : String := "handler"

/-- The exported names that carry schemas. -/
def actionsExport : String := "actions"

/-- A fault that a strict extraction reports and a lenient one answers with `otherwise`. -/
def orElse {α : Type} (strict : Bool) (error : ExtractError) (otherwise : α) : Extracted α :=
  if strict then .error error else .ok otherwise

/-- The local name behind an export. A declaration of the exported name itself comes before export lists. -/
def rootName? (m : Module) (name : String) (strict : Bool) : Extracted (Option String) :=
  match m.binding? name with
  | none => .ok (m.exportedLocal? name)
  | some _ =>
    match m.exportKind name with
    | .named => .ok (some name)
    | .default => orElse strict (.exportShape name .defaultExport) (some name)
    | .none => orElse strict (.exportShape name .notExported) (some name)

/-- The last property of a pattern with a key. -/
def propOf? (p : Pattern) (key : String) : Option PatternProp :=
  match p with
  | .object props => props.reverse.find? fun q => q.key = key
  | _ => none

/-- The input of a member of a parameter's type. -/
def inputOf (m : Module) (p : Pattern) (x : Member) : Option Input := do
  let node ← match x.type with
    | some t => m.propertyNodeOf t
    | none => some .any
  let prop := propOf? p x.key
  let doc := x.doc.elim .none Doc.parse
  some {
    key := x.key
    node := node
    optional := x.optional || prop.any (·.hasDefault)
    name := doc.name
    description := doc.description
    defaultValue := doc.default.or (prop.bind (·.defaultLiteral)) }

/-- The inputs of a parameter without a type. -/
def untypedInputs (p : Param) (name : String) (strict : Bool) : Extracted (List Input) :=
  match p.pattern with
  | .ident key => .ok [⟨key, .any, p.optional || p.hasDefault, none, none, none⟩]
  | .rest key => .ok [⟨key, .any, p.optional || p.hasDefault, none, none, none⟩]
  | .object props =>
    .ok (props.map fun q => ⟨q.key, .any, q.hasDefault, none, none, q.defaultLiteral⟩)
  | .other => orElse strict (.resolution name .patternNotEnumerable) []

/-- The inputs of a parameter with a type. -/
def typedInputs (m : Module) (p : Param) (t : TypeExpr) (name : String) (strict : Bool) :
    Extracted (List Input) :=
  match m.membersOf t with
  | none => .error (.endlessType name)
  | some none => orElse strict (.resolution name .notAnObjectType) []
  | some (some ms) =>
    match ms.mapM (inputOf m p.pattern) with
    | none => .error (.endlessType name)
    | some inputs => .ok inputs

/-- Whether a parameter's name says that it is not used. -/
def isUnused (p : Param) : Bool := p.name?.any fun n => n.toList.head? = some '_'

/-- The inputs that a function takes by its first parameter. -/
def inputsOf (m : Module) (sig : FunctionSig) (name : String) (strict : Bool) : Extracted (List Input) :=
  match sig.params with
  | [] => .ok []
  | p :: _ =>
    if isUnused p then .ok []
    else
      match p.type with
      | none => untypedInputs p name strict
      | some t =>
        if t.isKeyword "any" then untypedInputs p name strict else typedInputs m p t name strict

/-- The inputs of the handler; none when the script has no handler. -/
def handler (m : Module) (strict : Bool) : Extracted (Option (List Input)) := do
  match ← rootName? m handlerExport strict with
  | none => .ok none
  | some root =>
    match m.resolveFunction root with
    | .ok (some sig) => (inputsOf m sig handlerExport strict).map some
    | .ok none => orElse strict (.resolution handlerExport .notAFunction) (some [])
    | .error c => orElse strict (.cycle c) (some [])

/-- The action of a property; a lenient extraction leaves out one that is no function. -/
def actionOf (m : Module) (strict : Bool) (key : String) (value : Expr) : Extracted (Option Action) :=
  let name := actionsExport ++ "." ++ key
  match m.resolveExpr value with
  | .ok (some sig) => (inputsOf m sig name strict).map fun inputs => some ⟨key, inputs⟩
  | .ok none => orElse strict (.resolution name .notAFunction) none
  | .error c => orElse strict (.cycle c) none

/-- The actions of properties, added to those before them. -/
def actionsFrom (m : Module) (strict : Bool) : List (String × Action) → List (String × Expr) →
    Extracted (List (String × Action))
  | map, [] => .ok map
  | map, (key, value) :: r => do
    match ← actionOf m strict key value with
    | some a => actionsFrom m strict (putSorted key a map) r
    | none => actionsFrom m strict map r

/-- The actions; none when the script has no actions or the map is empty. -/
def actions (m : Module) (strict : Bool) : Extracted (Option (List (String × Action))) := do
  match ← rootName? m actionsExport strict with
  | none => .ok none
  | some root =>
    match m.resolveObject root with
    | .ok (some props) => do
      let map ← actionsFrom m strict [] props
      .ok (if map.isEmpty then none else some map)
    | .ok none => orElse strict (.resolution actionsExport .notAnObject) none
    | .error c => orElse strict (.cycle c) none

/-- The module of a source text; none when it cannot be read and need not be. -/
def moduleOf? (source : String) (strict : Bool) : Extracted (Option Module) :=
  match Module.ofSource source with
  | .ok m => .ok (some m)
  | .error e => orElse strict (.unreadable e) none

/-- What a module tells, or `otherwise` when there is none. -/
def fromSource {α : Type} (source : String) (strict : Bool) (otherwise : α) (read : Module → Extracted α) :
    Extracted α := do
  match ← moduleOf? source strict with
  | some m => read m
  | none => .ok otherwise

end Extract

namespace ScriptSchema

/-- The schema of a module. -/
def ofModule (m : Module) (strict : Bool) : Extracted ScriptSchema := do
  let handler ← Extract.handler m strict
  let actions ← Extract.actions m strict
  .ok ⟨handler, actions⟩

/-- The schema of a script. -/
def ofSource (source : String) (strict : Bool) : Extracted ScriptSchema :=
  Extract.fromSource source strict .empty fun m => ofModule m strict

/-- The inputs of a script's handler. -/
def inputsOfSource (source : String) (strict : Bool) : Extracted (Option (List Input)) :=
  Extract.fromSource source strict none fun m => Extract.handler m strict

/-- The actions of a script. -/
def actionsOfSource (source : String) (strict : Bool) : Extracted (Option (List (String × Action))) :=
  Extract.fromSource source strict none fun m => Extract.actions m strict

end ScriptSchema

end AppBundler
