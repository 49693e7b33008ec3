import AppBundler.Source.Tree.Types
import AppBundler.Source.Tree.Literals
/-!
# Expressions

Functions, calls, members, identifiers, object literals and plain literals are kept. Everything else is
passed over to where the expression ends, and so is an expression that cannot be read.
-/

namespace AppBundler

namespace Expr

/-! ## Arrow functions -/

/-- Passes the body of an arrow function. -/
def skipArrowBody (c : Cursor) : Parsed Cursor := if c.nextIs "\x7b" then c.skipGroup else .ok c.skipExpr

/-- The parameters of an arrow function and the place before its arrow. -/
def arrowHead (inner : Inner) (c : Cursor) : Parsed (List Param × Cursor) := do
  let (ps, c) ← Param.parseList inner c
  let (_, c) ← inner.annotation? c
  if c.nextIs "=>" && !c.newlineNext then .ok (ps, c) else .error (c.unexpected .arrow)

/-- An arrow function with parenthesized parameters, if one comes next. -/
def arrow? (inner : Inner) (isAsync : Bool) (c : Cursor) : Parsed (Option (FunctionSig × Cursor)) :=
  match arrowHead inner c with
  | .error _ => .ok none
  | .ok (ps, c) => do
    let c ← c.expect "=>"
    let c ← skipArrowBody c
    .ok (some (⟨ps, isAsync⟩, c))

/-- An arrow function with one bare parameter. -/
def singleArrow (isAsync : Bool) (c : Cursor) : Parsed (Expr × Cursor) := do
  let (name, c) ← c.identifier
  let c ← c.expect "=>"
  let c ← skipArrowBody c
  .ok (.function ⟨[⟨.ident name, false, none, false⟩], isAsync⟩, c)

/-! ## Arguments and object literals -/

/-- One argument. What is spread is passed over. -/
def parseArg (inner : Inner) (c : Cursor) : Parsed (Expr × Cursor) :=
  match c.eat? "..." with
  | some c => .ok (.other, c.skipExpr)
  | none => inner.expr c

/-- Arguments up to their parenthesis. -/
def parseArgsRest (inner : Inner) : Nat → Cursor → Parsed (List Expr × Cursor)
  | 0, c => .error c.tooDeep
  | n + 1, c =>
    if c.nextIs ")" then .ok ([], c)
    else if c.atEnd then .error (c.unexpected (.punct ")"))
    else do
      let (e, c) ← parseArg inner c
      match c.eat? "," with
      | none => .ok ([e], c)
      | some c => do
        let (more, c) ← parseArgsRest inner n c
        .ok (e :: more, c)

/-- The arguments of a call. -/
def parseArgs (inner : Inner) (c : Cursor) : Parsed (List Expr × Cursor) := do
  let c ← c.expect "("
  let (es, c) ← parseArgsRest inner inner.rounds c
  let c ← c.expect ")"
  .ok (es, c)

/-- Whether the word that comes next is a modifier of a property and not its key. -/
def isModifier (c : Cursor) : Bool :=
  (c.peekAt? 1).any fun t => !t.isPunctOf [":", "(", ",", "\x7d"]

/-- The value of a property after its key. -/
def parsePropValue (inner : Inner) (isAsync : Bool) (key : Option String) (c : Cursor) :
    Parsed (Expr × Cursor) :=
  match c.eat? ":" with
  | some c => inner.expr c
  | none =>
    if c.nextIs "(" || c.nextIs "<" then do
      let (sig, c) ← FunctionSig.parse inner isAsync c
      .ok (.function sig, c)
    else
      match key with
      | some k => .ok (.ident k, c)
      | none => .ok (.other, c)

/-- Properties up to their brace. Accessors, spreads and properties with computed keys are left out. -/
def parseProps (inner : Inner) : Nat → Cursor → Parsed (List (String × Expr) × Cursor)
  | 0, c => .error c.tooDeep
  | n + 1, c =>
    if c.nextIs "\x7d" then .ok ([], c)
    else if c.atEnd then .error (c.unexpected (.punct "\x7d"))
    else
      match c.eat? "..." with
      | some c => parseProps inner n (c.skipExpr.skip ",")
      | none =>
        if (c.nextIsIdent "get" || c.nextIsIdent "set") && isModifier c then do
          let (_, c) ← c.next.propertyKey
          let (_, c) ← FunctionSig.parse inner false c
          parseProps inner n (c.skip ",")
        else do
          let isAsync := c.nextIsIdent "async" && isModifier c
          let c := (if isAsync then c.next else c).skip "*"
          let (key, c) ← c.propertyKey
          let (value, c) ← parsePropValue inner isAsync key c
          let here := key.toList.map fun k => (k, value)
          match c.eat? "," with
          | none => .ok (here, c)
          | some c => do
            let (more, c) ← parseProps inner n c
            .ok (here ++ more, c)

/-- An object literal. -/
def parseObject (inner : Inner) (c : Cursor) : Parsed (Expr × Cursor) := do
  let c ← c.expect "\x7b"
  let (props, c) ← parseProps inner inner.rounds c
  let c ← c.expect "\x7d"
  .ok (.object props, c)

/-! ## Operands -/

/-- A function expression after its `function`. -/
def parseFunction (inner : Inner) (isAsync : Bool) (c : Cursor) : Parsed (Expr × Cursor) := do
  let c := c.skip "*"
  let c := if c.nextIsKind .ident then c.next else c
  let (sig, c) ← FunctionSig.parse inner isAsync c
  .ok (.function sig, c)

/-- An operand that begins with `async`, on whose line the next token stands. -/
def parseAsync (inner : Inner) (c : Cursor) : Parsed (Expr × Cursor) :=
  if c.nthIsIdent 1 "function" then parseFunction inner true c.next.next
  else if c.nthIsKind 1 .ident && c.nthIs 2 "=>" then singleArrow true c.next
  else if c.nthIs 1 "(" || c.nthIs 1 "<" then do
    let head ← c.next.skipAnglesIfNext
    match ← arrow? inner true head with
    | some (sig, c) => .ok (.function sig, c)
    | none => .ok (.ident "async", c.next)
  else .ok (.ident "async", c.next)

/-- What follows `new`: its operand with members, type arguments and arguments. -/
def skipNew (inner : Inner) (c : Cursor) : Parsed Cursor := do
  let (_, c) ← inner.primaryExpr c
  let (_, c) := Cursor.nameParts c.before c.ahead
  let c ← c.skipAnglesIfNext
  if c.nextIs "(" then c.skipGroup else .ok c

/-- An operand that begins with the word `name`, which comes next. -/
def parseWord (inner : Inner) (name : String) (c : Cursor) : Parsed (Expr × Cursor) :=
  if name = "async" && !(c.peekAt? 1).any (·.newlineBefore) then parseAsync inner c
  else if name = "function" then parseFunction inner false c.next
  else if name = "true" || name = "false" then .ok (.literal (.bool (name = "true")), c.next)
  else if name = "null" then .ok (.literal .null, c.next)
  else if name = "new" then do
    let c ← skipNew inner c.next
    .ok (.other, c)
  else if ["await", "typeof", "void", "delete", "yield"].contains name then do
    let (_, c) ← inner.postfixExpr c.next
    .ok (.other, c)
  else if name = "class" then do
    let c ← c.skipClass
    .ok (.other, c)
  else if (c.peekAt? 1).any (fun t => t.isPunct "=>" && !t.newlineBefore) then singleArrow false c
  else .ok (.ident name, c.next)

/-- An operand that begins with a punctuator. -/
def parsePunct (inner : Inner) (text : String) (c : Cursor) : Parsed (Expr × Cursor) :=
  if text = "(" then do
    match ← arrow? inner false c with
    | some (sig, c) => .ok (.function sig, c)
    | none =>
      let (e, c) ← inner.expr c.next
      let c ← c.expect ")"
      .ok (e, c)
  else if text = "<" then do
    let c ← c.skipAngles
    match ← arrow? inner false c with
    | some (sig, c) => .ok (.function sig, c)
    | none => .error (c.unexpected .arrowFunction)
  else if text = "\x7b" then parseObject inner c
  else if text = "-" && c.nthIsKind 1 .number then
    .ok (.literal (Literal.number ((c.peekAt? 1).elim "" (·.text)) true), c.next.next)
  else if text = "[" then do
    let c ← c.skipGroup
    .ok (.other, c)
  else if ["!", "+", "-", "~", "++", "--"].contains text then do
    let (_, c) ← inner.postfixExpr c.next
    .ok (.other, c)
  else .error (c.unexpected .expression)

/-- An operand without suffixes. -/
def parsePrimary (inner : Inner) (c : Cursor) : Parsed (Expr × Cursor) :=
  match c.peek? with
  | none => .error (c.unexpected .expression)
  | some t =>
    match t.kind with
    | .string => .ok (.literal (.string (t.stringValue?.getD "")), c.next)
    | .number => .ok (.literal (Literal.number t.text false), c.next)
    | .template =>
      match Literal.template? t.text with
      | some s => .ok (.literal (.string s), c.next)
      | none => .ok (.other, c.next)
    | .regex | .jsx => .ok (.other, c.next)
    | .punct => parsePunct inner t.text c
    | .ident => parseWord inner t.text c

/-! ## Suffixes -/

/-- Whether type arguments may follow an operand. -/
def takesTypeArgs : Expr → Bool
  | .ident _ => true
  | .member _ _ => true
  | _ => false

/-- The place after type arguments, if a call follows them. -/
def skipTypeArgs? (c : Cursor) : Option Cursor :=
  match c.skipAngles with
  | .ok c => if c.nextIs "(" then some c else none
  | .error _ => none

/-- One suffix of an operand and the place after it; nothing when none follows. -/
def parseSuffix (inner : Inner) (e : Expr) (c : Cursor) : Parsed (Option (Expr × Cursor)) :=
  if c.nextIs "." || c.nextIs "?." then
    let c := c.next
    if c.nextIs "(" then do
      let (args, c) ← parseArgs inner c
      .ok (some (.call e args, c))
    else if c.nextIs "[" then do
      let c ← c.skipGroup
      .ok (some (.other, c))
    else do
      let (property, c) ← c.identifier
      .ok (some (.member e property, c))
  else if c.nextIs "(" && !c.newlineNext then do
    let (args, c) ← parseArgs inner c
    .ok (some (.call e args, c))
  else if c.nextIs "[" && !c.newlineNext then do
    let c ← c.skipGroup
    .ok (some (.other, c))
  else if c.nextIs "<" && e.takesTypeArgs then .ok ((skipTypeArgs? c).map fun c => (e, c))
  else if c.nextIs "!" && !c.newlineNext then .ok (some (e, c.next))
  else if (c.nextIsIdent "as" || c.nextIsIdent "satisfies") && !c.newlineNext then
    match c.next.eatIdent? "const" with
    | some c => .ok (some (e, c))
    | none => do
      let (_, c) ← inner.type c.next
      .ok (some (e, c))
  else if c.nextIsKind .template && !c.newlineNext then .ok (some (.other, c.next))
  else .ok none

/-- The suffixes of an operand. -/
def parseSuffixes (inner : Inner) : Nat → Expr → Cursor → Parsed (Expr × Cursor)
  | 0, _, c => .error c.tooDeep
  | n + 1, e, c => do
    match ← parseSuffix inner e c with
    | none => .ok (e, c)
    | some (e, c) => parseSuffixes inner n e c

/-- An operand with its suffixes. -/
def parsePostfix (inner : Inner) (c : Cursor) : Parsed (Expr × Cursor) := do
  let (e, c) ← parsePrimary inner c
  parseSuffixes inner inner.rounds e c

/-- Whether an expression may end here. -/
def endsAt (c : Cursor) : Bool :=
  match c.peek? with
  | none => true
  | some t => if t.kind = .punct then Cursor.endsExpr t else c.atBreak

/-- An expression: an operand with its suffixes, if nothing more follows. -/
def parse (inner : Inner) (c : Cursor) : Parsed (Expr × Cursor) :=
  match parsePostfix inner c with
  | .error _ => .ok (.other, c.skipExpr)
  | .ok (e, after) => if endsAt after then .ok (e, after) else .ok (.other, after.skipExpr)

end Expr

/-- The parsers that may be handed over to `depth` times. -/
def Inner.ofDepth : Nat → Inner
  | 0 => .nothing
  | n + 1 =>
    let below := ofDepth n
    ⟨n + 1, TypeExpr.parse below, TypeExpr.parsePostfix below, TypeExpr.parsePrimary below,
      Expr.parse below, Expr.parsePostfix below, Expr.parsePrimary below⟩

end AppBundler
