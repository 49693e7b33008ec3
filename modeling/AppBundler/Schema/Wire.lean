import AppBundler.Schema.Node
/-!
# Schemas as JSON

A node is an object with its kind in the member `kind`. When a node is read its members may stand in any
order and others are ignored; it may also be an array of its kind and its fields in order. An array node
tells by `isUnion` which of its two shapes `elements` has, and the two must agree.
-/

namespace AppBundler

namespace PrimitiveKind

/-- The name of a kind. -/
def toName : PrimitiveKind → String
  | .string => "string"
  | .number => "number"
  | .boolean => "boolean"
  | .date => "date"
  | .any => "any"
  | .unknown => "unknown"
  | .file => "file"

/-- The kind of a name. -/
def ofName? (s : String) : Option PrimitiveKind :=
  [PrimitiveKind.string, .number, .boolean, .date, .any, .unknown, .file].find? fun k => k.toName = s

end PrimitiveKind

namespace EnumValue

/-- A value as JSON. -/
def toJson : EnumValue → Json
  | .name s => .string s
  | .keyed key value => .object [("key", .string key), ("value", .string value)]

/-- The value that JSON stands for. -/
def ofJson? : Json → Option EnumValue
  | .string s => some (.name s)
  | .object ms => do
    let key ← (← Json.lookup "key" ms).string?
    let value ← (← Json.lookup "value" ms).string?
    some (.keyed key value)
  | _ => none

end EnumValue

namespace Node

/-- The name of a node's kind. -/
def kindName : Node → String
  | .primitive kind _ => kind.toName
  | .array _ => "array"
  | .unionArray _ => "array"
  | .object _ => "object"
  | .union _ => "union"
  | .enum _ => "enum"

mutual

/-- A node as JSON. -/
def toJson : Node → Json
  | .primitive kind none => .object [("kind", .string kind.toName)]
  | .primitive kind (some s) => .object [("kind", .string kind.toName), ("literal", .string s)]
  | .array element =>
    .object [("kind", .string "array"), ("isUnion", .bool false), ("elements", element.toJson)]
  | .unionArray members =>
    .object [("kind", .string "array"), ("isUnion", .bool true), ("elements", .array (listToJson members))]
  | .object properties =>
    .object [("kind", .string "object"), ("properties", .array (propertiesToJson properties))]
  | .union variants => .object [("kind", .string "union"), ("variants", .array (listToJson variants))]
  | .enum values => .object [("kind", .string "enum"), ("values", .array (values.map EnumValue.toJson))]

/-- Nodes as JSON. -/
def listToJson : List Node → List Json
  | [] => []
  | x :: r => x.toJson :: listToJson r

/-- Properties as JSON. -/
def propertiesToJson : List (String × Node) → List Json
  | [] => []
  | (k, v) :: r => .object [("key", .string k), ("node", v.toJson)] :: propertiesToJson r

end

/-- The kinds of nodes in the order in which numbers name them. -/
def kindNames : List String :=
  ["string", "number", "boolean", "date", "any", "unknown", "file", "array", "object", "union", "enum"]

/-- The name of a kind. Inside another node the number of a kind stands for it too. -/
def readKind? (inside : Bool) : Json → Option String
  | .string s => some s
  | .int (.ofNat n) => if inside then kindNames[n]? else none
  | _ => none

/-- The kind of a node and its fields, which are looked up by name or by place. An array may have no more
than `count` fields. -/
def readFields? (inside : Bool) (j : Json) : Option (String × (Nat → String → Option Json) × Nat) :=
  match j with
  | .object ms => do
    let kind ← readKind? inside (← Json.lookup "kind" ms)
    some (kind, fun _ name => Json.lookup name ms, 0)
  | .array (k :: fields) => do
    let kind ← readKind? inside k
    some (kind, fun place _ => fields[place]?, fields.length)
  | _ => none

/-- An optional text; `null` is none. -/
def readOption? : Option Json → Option (Option String)
  | none => some none
  | some .null => some none
  | some (.string s) => some (some s)
  | some _ => none

/-- A property, by name or by place. -/
def readProperty? (read : Json → Option Node) : Json → Option (String × Node)
  | .object ms => do
    let key ← (← Json.lookup "key" ms).string?
    let node ← read (← Json.lookup "node" ms)
    some (key, node)
  | .array [.string key, node] => (read node).map fun node => (key, node)
  | _ => none

/-- The elements of an array node: several nodes if JSON is an array of nodes, else one. -/
def readElements? (read : Json → Option Node) (j : Json) : Option (List Node ⊕ Node) :=
  match j with
  | .array xs =>
    match xs.mapM read with
    | some nodes => some (.inl nodes)
    | none => (read j).map .inr
  | j => (read j).map .inr

/-- A node with the fields it was read with. -/
def ofFields? (read : Json → Option Node) (kind : String) (field : Nat → String → Option Json) :
    Option Node :=
  if kind = "array" then do
    let isUnion ← (← field 0 "isUnion").bool?
    match isUnion, ← readElements? read (← field 1 "elements") with
    | true, .inl nodes => some (.unionArray nodes)
    | false, .inr node => some (.array node)
    | _, _ => none
  else if kind = "object" then do
    let properties ← (← (← field 0 "properties").array?).mapM (readProperty? read)
    some (.object properties)
  else if kind = "union" then do
    let variants ← (← (← field 0 "variants").array?).mapM read
    some (.union variants)
  else if kind = "enum" then do
    let values ← (← (← field 0 "values").array?).mapM EnumValue.ofJson?
    some (.enum values)
  else do
    let kind ← PrimitiveKind.ofName? kind
    let literal ← readOption? (field 0 "literal")
    some (.primitive kind literal)

/-- How many fields a node of a kind has. -/
def fieldCount (kind : String) : Nat := if kind = "array" then 2 else 1

/-- The node that JSON stands for, read to a depth of nesting. -/
def ofJsonWithin? : Nat → (inside : Bool) → Json → Option Node
  | 0, _, _ => none
  | n + 1, inside, j => do
    let (kind, field, count) ← readFields? inside j
    if fieldCount kind < count then none else ofFields? (ofJsonWithin? n true) kind field

end Node

namespace Json

mutual

/-- How deep values stand in each other. -/
def depth : Json → Nat
  | .array xs => elementDepth xs + 1
  | .object ms => memberDepth ms + 1
  | .null => 1
  | .bool _ => 1
  | .int _ => 1
  | .double _ => 1
  | .string _ => 1

/-- The greatest depth among elements. -/
def elementDepth : List Json → Nat
  | [] => 0
  | x :: r => max x.depth (elementDepth r)

/-- The greatest depth among the values of members. -/
def memberDepth : List (String × Json) → Nat
  | [] => 0
  | (_, v) :: r => max v.depth (memberDepth r)

end

end Json

/-- The node that JSON stands for. -/
def Node.ofJson? (j : Json) : Option Node := Node.ofJsonWithin? j.depth false j

namespace Input

/-- A member that is left out when it has no value. -/
def optionalMember (key : String) (value : Option Json) : List (String × Json) :=
  value.toList.map fun v => (key, v)

/-- An input as JSON. -/
def toJson (i : Input) : Json :=
  .object ([("key", .string i.key), ("node", i.node.toJson), ("optional", .bool i.optional)] ++
    optionalMember "name" (i.name.map .string) ++
    optionalMember "description" (i.description.map .string) ++
    optionalMember "defaultValue" i.defaultValue)

/-- The value of a member that may be absent; `null` is none. -/
def readValue : Option Json → Option Json
  | some .null => none
  | v => v

/-- The input with fields that are looked up by name or by place. -/
def ofFields? (field : Nat → String → Option Json) : Option Input := do
  let key ← (← field 0 "key").string?
  let node ← Node.ofJson? (← field 1 "node")
  let optional ← (← field 2 "optional").bool?
  let name ← Node.readOption? (field 3 "name")
  let description ← Node.readOption? (field 4 "description")
  some ⟨key, node, optional, name, description, readValue (field 5 "defaultValue")⟩

/-- The input that JSON stands for: an object, or an array of its fields in order. -/
def ofJson? : Json → Option Input
  | .object ms => ofFields? fun _ name => Json.lookup name ms
  | .array fields => if 6 < fields.length then none else ofFields? fun place _ => fields[place]?
  | _ => none

/-- The inputs that a JSON array stands for. -/
def listOfJson? (j : Json) : Option (List Input) := do (← j.array?).mapM ofJson?

/-- Inputs as JSON. -/
def listToJson (inputs : List Input) : Json := .array (inputs.map toJson)

end Input

namespace Action

/-- An action as JSON. -/
def toJson (a : Action) : Json := .object [("name", .string a.name), ("inputs", Input.listToJson a.inputs)]

/-- The action that JSON stands for: an object, or an array of its fields in order. -/
def ofJson? : Json → Option Action
  | .object ms => do
    let name ← (← Json.lookup "name" ms).string?
    let inputs ← Input.listOfJson? (← Json.lookup "inputs" ms)
    some ⟨name, inputs⟩
  | .array [.string name, inputs] => (Input.listOfJson? inputs).map fun inputs => ⟨name, inputs⟩
  | _ => none

end Action

namespace ScriptSchema

/-- The inputs of a handler as JSON. -/
def handlerJson (s : ScriptSchema) : Json := s.handler.elim .null Input.listToJson

/-- Actions as JSON. -/
def actionsJson (s : ScriptSchema) : Json :=
  s.actions.elim .null fun actions => .object (actions.map fun (name, a) => (name, a.toJson))

/-- A schema as JSON. -/
def toJson (s : ScriptSchema) : Json := .object [("handler", s.handlerJson), ("actions", s.actionsJson)]

/-- The handler that JSON stands for. -/
def readHandler? : Option Json → Option (Option (List Input))
  | none => some none
  | some .null => some none
  | some j => (Input.listOfJson? j).map some

/-- The actions that JSON stands for. -/
def readActions? : Option Json → Option (Option (List (String × Action)))
  | none => some none
  | some .null => some none
  | some (.object ms) => do
    let actions ← ms.mapM fun (name, j) => (Action.ofJson? j).map fun a => (name, a)
    some (some (actions.foldl (fun map (name, a) => putSorted name a map) []))
  | some _ => none

/-- The schema that JSON stands for: an object, or an array of its two fields. -/
def ofJson? : Json → Option ScriptSchema
  | .object ms => do
    let handler ← readHandler? (Json.lookup "handler" ms)
    let actions ← readActions? (Json.lookup "actions" ms)
    some ⟨handler, actions⟩
  | .array [h, a] => do
    let handler ← readHandler? (some h)
    let actions ← readActions? (some a)
    some ⟨handler, actions⟩
  | _ => none

end ScriptSchema

end AppBundler
