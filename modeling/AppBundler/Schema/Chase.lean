import AppBundler.Source.Tree
/-!
# Following names

A name is followed to what its value is made from: a variable leads to its initializer, a call to its first
argument, and an identifier to the name it mentions. A function ends the search for something to call, an
object literal the search for a map of actions. Each name that is visited is recorded, and a name that comes
up twice is a cycle.
-/

namespace AppBundler

/-- A cycle of names: the visited ones in order, up to and including the first that came up again. -/
structure NameCycle where
  chain : List String
deriving DecidableEq

/-- The name at which a cycle began to be followed. -/
def NameCycle.name (c : NameCycle) : String := c.chain.headD ""

/-- The expression that a call passes on: the first argument of the outermost call, and so on inwards. A call
without arguments passes nothing on. -/
def Expr.passedOn : Expr → Option Expr
  | .call _ (first :: _) => first.passedOn
  | .call _ [] => none
  | e => some e

namespace Chase

/-- Where following a name leads next. -/
inductive Step (α : Type) where
  /-- The value that was looked for. -/
  | found (value : α)
  /-- Nothing that could be followed. -/
  | deadEnd
  /-- Another name. -/
  | goOn (name : String)

/-- Follows steps from a name, given the names visited before it. No name is visited twice, and only names
that the module binds lead on, so as many steps as there are items, and one, are enough. -/
def follow {α : Type} (step : String → Step α) : Nat → (visited : List String) → String →
    Except NameCycle (Option α)
  | 0, _, _ => .ok none
  | n + 1, visited, name =>
    if visited.contains name then .error ⟨visited ++ [name]⟩
    else
      match step name with
      | .found value => .ok (some value)
      | .deadEnd => .ok none
      | .goOn next => follow step n (visited ++ [name]) next

/-- The step from an expression towards a function. -/
def functionStepOf (e : Expr) : Step FunctionSig :=
  match e.passedOn with
  | some (.function sig) => .found sig
  | some (.ident name) => .goOn name
  | _ => .deadEnd

/-- The step from a name towards a function. -/
def functionStep (m : Module) (name : String) : Step FunctionSig :=
  match m.binding? name with
  | some (.function f) => .found f.sig
  | some (.variable v) => v.init.elim .deadEnd functionStepOf
  | none => .deadEnd

/-- The step from an expression towards an object literal. -/
def objectStepOf (e : Expr) : Step (List (String × Expr)) :=
  match e.passedOn with
  | some (.object props) => .found props
  | some (.ident name) => .goOn name
  | _ => .deadEnd

/-- The step from a name towards an object literal. A function is none. -/
def objectStep (m : Module) (name : String) : Step (List (String × Expr)) :=
  match m.binding? name with
  | some (.variable v) => v.init.elim .deadEnd objectStepOf
  | _ => .deadEnd

end Chase

namespace Module

/-- How many steps following a name can take. -/
def stepLimit (m : Module) : Nat := m.items.length + 2

/-- The function that a name stands for in the end. -/
def resolveFunction (m : Module) (name : String) : Except NameCycle (Option FunctionSig) :=
  Chase.follow (Chase.functionStep m) m.stepLimit [] name

/-- The function that an expression stands for in the end. -/
def resolveExpr (m : Module) (e : Expr) : Except NameCycle (Option FunctionSig) :=
  match Chase.functionStepOf e with
  | .found sig => .ok (some sig)
  | .deadEnd => .ok none
  | .goOn name => m.resolveFunction name

/-- The object literal that a name stands for in the end. -/
def resolveObject (m : Module) (name : String) : Except NameCycle (Option (List (String × Expr))) :=
  Chase.follow (Chase.objectStep m) m.stepLimit [] name

end Module

end AppBundler
