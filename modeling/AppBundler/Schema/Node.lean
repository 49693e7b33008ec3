import AppBundler.Json.Value
/-!
# Input schemas

A node describes the type of one input. An input has a node and what its documentation says; a script's
schema has the inputs of its handler and of each of its actions.
-/

namespace AppBundler

/-- The kinds of nodes without parts. -/
inductive PrimitiveKind where
  | string
  | number
  | boolean
  | date
  | any
  | unknown
  | file
deriving DecidableEq, Inhabited

/-- A value of an enum, with or without a key of its own. -/
inductive EnumValue where
  | name (value : String)
  | keyed (key value : String)
deriving DecidableEq, Inhabited

/-- The type of an input. -/
inductive Node where
  /-- A literal type has its text. -/
  | primitive (kind : PrimitiveKind) (literal : Option String)
  /-- An array whose elements are not of a union. -/
  | array (element : Node)
  /-- An array whose elements are of a union, by its members. -/
  | unionArray (members : List Node)
  | object (properties : List (String × Node))
  | union (variants : List Node)
  | enum (values : List EnumValue)
deriving Inhabited

namespace Node

/-- The node of a type that allows everything. -/
def any : Node := .primitive .any none

/-- The node of a type that is not told. -/
def unknown : Node := .primitive .unknown none

end Node

/-- An input of a handler or an action. -/
structure Input where
  key : String
  node : Node
  optional : Bool
  /-- The name that the documentation gives it. -/
  name : Option String
  description : Option String
  defaultValue : Option Json

/-- An action and its inputs. -/
structure Action where
  name : String
  inputs : List Input

/-- The schema of a script. -/
structure ScriptSchema where
  /-- Absent when the script has no handler. -/
  handler : Option (List Input)
  /-- Absent when the script has no actions; otherwise in the order of their names. -/
  actions : Option (List (String × Action))

/-- The schema of a script of which nothing is known. -/
def ScriptSchema.empty : ScriptSchema := ⟨none, none⟩

/-- Adds an entry to a map that is kept in the order of its keys; an entry with the same key is replaced. -/
def putSorted {α : Type} (key : String) (value : α) : List (String × α) → List (String × α)
  | [] => [(key, value)]
  | (k, v) :: r =>
    if k = key then (key, value) :: r
    else if key < k then (key, value) :: (k, v) :: r
    else (k, v) :: putSorted key value r

end AppBundler
