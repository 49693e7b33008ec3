import AppBundler.Source.Tree.Inner
/-!
# Parameters and functions

A parameter list in parentheses, its patterns, and the rest of a function from its parameters on.
-/

namespace AppBundler

namespace Pattern

/-- Passes what a property of an object pattern binds in place of its key. -/
def skipTarget (c : Cursor) : Parsed Cursor :=
  match c.eat? ":" with
  | none => .ok c
  | some c => if c.nextIs "\x7b" || c.nextIs "[" then c.skipGroup else c.identifier.map (·.2)

/-- The properties of an object pattern up to its brace. A rest element binds no key. -/
def parseProps (inner : Inner) : Nat → Cursor → Parsed (List PatternProp × Cursor)
  | 0, c => .error c.tooDeep
  | n + 1, c =>
    if c.nextIs "\x7d" then .ok ([], c)
    else if c.atEnd then .error (c.unexpected (.punct "\x7d"))
    else
      match c.eat? "..." with
      | some c => do
        let (_, c) ← c.identifier
        parseProps inner n (c.skip ",")
      | none => do
        let (key, c) ← c.propertyKey
        let c ← skipTarget c
        let (init, c) ← inner.initializer? c
        let here := key.toList.map fun k => (⟨k, init.isSome, init.bind (·.literal?)⟩ : PatternProp)
        match c.eat? "," with
        | none => .ok (here, c)
        | some c => do
          let (more, c) ← parseProps inner n c
          .ok (here ++ more, c)

/-- An object pattern. -/
def parseObject (inner : Inner) (c : Cursor) : Parsed (Pattern × Cursor) := do
  let c ← c.expect "\x7b"
  let (props, c) ← parseProps inner inner.rounds c
  let c ← c.expect "\x7d"
  .ok (.object props, c)

/-- What a parameter binds. -/
def parse (inner : Inner) (c : Cursor) : Parsed (Pattern × Cursor) :=
  match c.eat? "..." with
  | some c =>
    if c.nextIsKind .ident then do
      let (name, c) ← c.identifier
      .ok (.rest name, c)
    else do
      let c ← c.skipGroup
      .ok (.other, c)
  | none =>
    if c.nextIs "\x7b" then parseObject inner c
    else if c.nextIs "[" then do
      let c ← c.skipGroup
      .ok (.other, c)
    else do
      let (name, c) ← c.identifier
      .ok (.ident name, c)

end Pattern

namespace Param

/-- Words that may stand before a parameter. -/
def modifiers : List String := ["public", "private", "protected", "readonly", "override"]

/-- Passes the modifiers in front of a parameter. -/
def skipModifiers (before : Option Token) : List Token → Cursor
  | [] => ⟨before, []⟩
  | t :: r =>
    let c : Cursor := ⟨before, t :: r⟩
    if modifiers.contains t.text && (c.nthIsKind 1 .ident || c.nthIs 1 "\x7b" || c.nthIs 1 "[") then
      skipModifiers (some t) r
    else c

/-- Whether a parameter is the `this` of a function, which no caller passes. -/
def isThis (p : Param) : Bool :=
  match p.pattern with
  | .ident name => name = "this"
  | _ => false

/-- One parameter. -/
def parse (inner : Inner) (c : Cursor) : Parsed (Param × Cursor) := do
  let c := skipModifiers c.before c.ahead
  let (pattern, c) ← Pattern.parse inner c
  let optional := c.nextIs "?"
  let c := c.skip "?"
  let (type, c) ← inner.annotation? c
  match c.eat? "=" with
  | none => .ok (⟨pattern, optional, type, false⟩, c)
  | some c => .ok (⟨pattern, optional, type, true⟩, c.skipExpr)

/-- Parameters up to their parenthesis. -/
def parseRest (inner : Inner) : Nat → Cursor → Parsed (List Param × Cursor)
  | 0, c => .error c.tooDeep
  | n + 1, c =>
    if c.nextIs ")" then .ok ([], c)
    else if c.atEnd then .error (c.unexpected (.punct ")"))
    else do
      let (p, c) ← parse inner c
      let here := if p.isThis then [] else [p]
      match c.eat? "," with
      | none => .ok (here, c)
      | some c => do
        let (more, c) ← parseRest inner n c
        .ok (here ++ more, c)

/-- A parameter list. -/
def parseList (inner : Inner) (c : Cursor) : Parsed (List Param × Cursor) := do
  let c ← c.expect "("
  let (ps, c) ← parseRest inner inner.rounds c
  let c ← c.expect ")"
  .ok (ps, c)

end Param

/-- Passes the body of a function, or the semicolon that stands for it. -/
def FunctionSig.skipBody (c : Cursor) : Parsed Cursor :=
  if c.nextIs "\x7b" then c.skipGroup else .ok (c.skip ";")

/-- Type parameters, parameters, result type and body of a function. -/
def FunctionSig.parse (inner : Inner) (isAsync : Bool) (c : Cursor) : Parsed (FunctionSig × Cursor) := do
  let c ← c.skipAnglesIfNext
  let (params, c) ← Param.parseList inner c
  let (_, c) ← inner.annotation? c
  let c ← skipBody c
  .ok (⟨params, isAsync⟩, c)

end AppBundler
