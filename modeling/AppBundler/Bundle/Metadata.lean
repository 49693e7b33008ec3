import AppBundler.Json.Printer
import AppBundler.Text.Parts
/-!
# Metadata of scripts

A bundled script ends with statements that attach a name and a path to its handler and to each of its actions,
and that give the types of their inputs names of their own.
-/

namespace AppBundler

namespace Metadata

/-- The pieces of a text between characters that are neither ASCII letters nor digits. -/
def words : List Char → List (List Char)
  | [] => [[]]
  | c :: r =>
    if c.isAlphanum then
      match words r with
      | [] => [[c]]
      | w :: ws => (c :: w) :: ws
    else [] :: words r

/-- A word with a capital letter in front. -/
def capitalized : List Char → List Char
  | [] => []
  | c :: r => c.toUpper :: r

/-- The name of the type of an action's input. -/
def inputTypeName (action : String) : String :=
  let name := (words action.toList).flatMap capitalized
  let name := match name with
    | [] => ['_']
    | c :: r => if c.isDigit then '_' :: c :: r else c :: r
  String.ofList name ++ "ActionInput"

/-- The object that is attached. -/
def object (name path : String) : String :=
  (Json.object [("name", .string name), ("path", .string path)]).compact

/-- The statements for one callable: `target` is an expression for it, `typeOf` one for its type. -/
def statements (target typeOf name path typeName : String) : String :=
  "\nObject.assign(" ++ target ++ ", \x7b metadata: " ++ object name path ++ " \x7d);\n" ++
    "export type " ++ typeName ++ " = Parameters<" ++ typeOf ++ ">[0];\n"

/-- The statements for a handler that is bound to a name. -/
def handlerText (path binding : String) : String :=
  statements binding ("typeof " ++ binding) "handler" path "HandlerInput"

/-- The statements for an action in an object that is bound to a name. -/
def actionText (path binding action : String) : String :=
  let key := "[" ++ (Json.string action).compact ++ "]"
  statements (binding ++ key) ("(typeof " ++ binding ++ ")" ++ key) action path (inputTypeName action)

/-- The end of a script: the statements for its handler and its actions, each if it is bound to a name. -/
def footer (path : String) (handler actions : Option String) (names : List String) : String :=
  handler.elim "" (handlerText path) ++
    actions.elim "" fun binding => String.join (names.map (actionText path binding))

end Metadata

end AppBundler
