import AppBundler.Number.Double
/-!
# JSON values

An object is the list of its members in the order in which they were written. Integers of 64 bits are
exact; every other number is a double.
-/

namespace AppBundler

/-- A JSON value. An `int` lies in `[-2 ^ 63, 2 ^ 64)`. -/
inductive Json where
  | null
  | bool (value : Bool)
  | int (value : Int)
  | double (value : Double)
  | string (value : String)
  | array (elements : List Json)
  | object (members : List (String × Json))
deriving Inhabited

namespace Json

/-- Adds a member at the end; a key that is there already keeps its place and takes the new value. -/
def putMember (key : String) (value : Json) : List (String × Json) → List (String × Json)
  | [] => [(key, value)]
  | (k, v) :: r => if k = key then (k, value) :: r else (k, v) :: putMember key value r

mutual

/-- The value with the repeated keys of every object merged. -/
def merged : Json → Json
  | .array xs => .array (mergedElements xs)
  | .object ms => .object (mergedMembers [] ms)
  | .null => .null
  | .bool b => .bool b
  | .int n => .int n
  | .double x => .double x
  | .string s => .string s

/-- Each element with its repeated keys merged. -/
def mergedElements : List Json → List Json
  | [] => []
  | x :: r => merged x :: mergedElements r

/-- Members added to those before them. -/
def mergedMembers (before : List (String × Json)) : List (String × Json) → List (String × Json)
  | [] => before
  | (k, v) :: r => mergedMembers (putMember k (merged v) before) r

end

/-- The value of the first member with a key. -/
def lookup (key : String) : List (String × Json) → Option Json
  | [] => none
  | (k, v) :: r => if k = key then some v else lookup key r

/-- The value of the only member with a key; nothing when the key is missing or repeated. -/
def only? (key : String) (ms : List (String × Json)) : Option Json :=
  match ms.filter fun m => m.1 = key with
  | [(_, v)] => some v
  | _ => none

/-- The member of an object; nothing for any other value. -/
def member? (j : Json) (key : String) : Option Json :=
  match j with
  | .object ms => lookup key ms
  | _ => none

/-- The text of a string value. -/
def string? : Json → Option String
  | .string s => some s
  | _ => none

/-- The value as an integer. -/
def int? : Json → Option Int
  | .int n => some n
  | _ => none

/-- The value as a truth value. -/
def bool? : Json → Option Bool
  | .bool b => some b
  | _ => none

/-- The elements of an array. -/
def array? : Json → Option (List Json)
  | .array xs => some xs
  | _ => none

/-- A list of texts. -/
def strings? (j : Json) : Option (List String) := j.array?.bind fun xs => xs.mapM string?

/-- An optional text; `null` when it is absent. -/
def ofOption (s : Option String) : Json :=
  match s with
  | some s => .string s
  | none => .null

end Json

end AppBundler
