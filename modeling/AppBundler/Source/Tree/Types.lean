import AppBundler.Source.Tree.Params
/-!
# Types

A type is a union of intersections of primary types with suffixes. Function, mapped and conditional types
are read through to their end but not kept.
-/

namespace AppBundler

namespace TypeExpr

/-- The words that are types by themselves. -/
def keywords : List String :=
  ["string", "number", "boolean", "any", "unknown", "null", "undefined", "void", "never",
    "object", "bigint", "symbol"]

/-- The place after a function type, if parameters, an arrow and a type come next. -/
def skipFunction? (inner : Inner) (c : Cursor) : Option Cursor :=
  match Param.parseList inner c with
  | .error _ => none
  | .ok (_, c) =>
    match c.eat? "=>" with
    | none => none
    | some c =>
      match inner.type c with
      | .error _ => none
      | .ok (_, c) => some c

/-- Whether the brace that comes next begins a mapped type. -/
def isMapped (c : Cursor) : Bool :=
  c.nthIsIdent 1 "readonly" || c.nthIs 1 "+" || c.nthIs 1 "-" ||
    (c.nthIs 1 "[" && c.nthIsIdent 3 "in")

/-! ## Members of an object type -/

/-- Passes `readonly` in front of a member. -/
def skipReadonly (c : Cursor) : Cursor :=
  if c.nextIsIdent "readonly" && (c.keyAfterNext || c.nthIs 1 "[") then c.next else c

/-- Whether a member without a property of its own comes next. -/
def isSignature (c : Cursor) : Bool :=
  c.nextIs "[" || c.nextIs "(" || c.nextIs "<" ||
    ((c.nextIsIdent "get" || c.nextIsIdent "set") && c.keyAfterNext) ||
    (c.nextIsIdent "new" && (c.nthIs 1 "(" || c.nthIs 1 "<"))

/-- The key of a member. -/
def memberKey (c : Cursor) : Parsed (String × Cursor) :=
  match c.peek? with
  | some t =>
    match t.kind with
    | .ident | .number => .ok (t.text, c.next)
    | .string => .ok (t.stringValue?.getD "", c.next)
    | _ => .error (c.unexpected .propertySignature)
  | none => .error (c.unexpected .propertySignature)

/-- The type of a member after its key, and whether it is a method. -/
def memberType (inner : Inner) (c : Cursor) : Parsed (Option TypeExpr × Bool × Cursor) :=
  if c.nextIs "(" || c.nextIs "<" then do
    let c ← c.skipAnglesIfNext
    let (_, c) ← Param.parseList inner c
    let (_, c) ← inner.annotation? c
    .ok (some .other, true, c)
  else do
    let (t, c) ← inner.annotation? c
    .ok (t, false, c)

/-- Members up to their brace. A member ends with a separator, a line or the brace. -/
def parseMembers (inner : Inner) : Nat → Cursor → Parsed (List Member × Cursor)
  | 0, c => .error c.tooDeep
  | n + 1, c =>
    if c.nextIs "\x7d" then .ok ([], c)
    else if c.atEnd then .error (c.unexpected (.punct "\x7d"))
    else if c.nextIs ";" || c.nextIs "," then parseMembers inner n c.next
    else
      let doc := c.peek?.bind (·.doc)
      let c := skipReadonly c
      if isSignature c then parseMembers inner n c.skipTypeMember
      else do
        let (key, c) ← memberKey c
        let optional := c.nextIs "?"
        let c := c.skip "?"
        let (type, method, c) ← memberType inner c
        let separated := c.nextIs ";" || c.nextIs ","
        let c := if separated then c.next else c
        if !separated && !c.nextIs "\x7d" && !c.newlineNext then
          .error (c.unexpected .memberSeparator)
        else do
          let (more, c) ← parseMembers inner n c
          .ok (⟨key, optional, type, doc, method⟩ :: more, c)

/-- The members of an object type or an interface. -/
def parseObject (inner : Inner) (c : Cursor) : Parsed (List Member × Cursor) := do
  let c ← c.expect "\x7b"
  let (ms, c) ← parseMembers inner inner.rounds c
  let c ← c.expect "\x7d"
  .ok (ms, c)

/-! ## Names and primary types -/

/-- Type arguments up to their angle bracket. -/
def parseArgs (inner : Inner) : Nat → Cursor → Parsed (List TypeExpr × Cursor)
  | 0, c => .error c.tooDeep
  | n + 1, c =>
    if c.nextIs ">" then .ok ([], c)
    else do
      let (t, c) ← inner.type c
      match c.eat? "," with
      | none => .ok ([t], c)
      | some c => do
        let (more, c) ← parseArgs inner n c
        .ok (t :: more, c)

/-- A name with its type arguments, or a predicate on it. -/
def parseReference (inner : Inner) (c : Cursor) : Parsed (TypeExpr × Cursor) := do
  let (name, c) ← c.qualifiedName
  if c.nextIsIdent "is" && !c.newlineNext then
    let (_, c) ← inner.type c.next
    .ok (.other, c)
  else if name = "this" then .ok (.other, c)
  else
    match c.eat? "<" with
    | none => .ok (.reference name [], c)
    | some c => do
      let (args, c) ← parseArgs inner inner.rounds c
      let c ← c.expect ">"
      .ok (.reference name args, c)

/-- The type of a construct signature after its first word. -/
def parseConstructor (inner : Inner) (c : Cursor) : Parsed (TypeExpr × Cursor) := do
  let c ← (c.skipIdent "new").skipAnglesIfNext
  match skipFunction? inner c with
  | some c => .ok (.other, c)
  | none => .error (c.unexpected .constructorType)

/-- A type that begins with the word `name`, which comes next. -/
def parseNamed (inner : Inner) (name : String) (c : Cursor) : Parsed (TypeExpr × Cursor) :=
  if name = "keyof" then
    match c.next.eatIdent? "typeof" with
    | some c => do
      let (name, c) ← c.qualifiedName
      .ok (.keyofTypeof name, c)
    | none => do
      let (_, c) ← inner.postfixType c.next
      .ok (.other, c)
  else if name = "typeof" then do
    let (_, c) ← c.next.qualifiedName
    let c ← c.skipAnglesIfNext
    .ok (.other, c)
  else if name = "readonly" then inner.postfixType c.next
  else if name = "unique" || name = "infer" then do
    let (_, c) ← inner.primaryType c.next
    .ok (.other, c)
  else if name = "abstract" || name = "new" then parseConstructor inner c.next
  else if name = "asserts" && c.nthIsKind 1 .ident then
    match c.next.next.eatIdent? "is" with
    | none => .ok (.other, c.next.next)
    | some c => do
      let (_, c) ← inner.type c
      .ok (.other, c)
  else if name = "true" || name = "false" then .ok (.literal (.bool (name = "true")), c.next)
  else if keywords.contains name then .ok (.keyword name, c.next)
  else parseReference inner c

/-- A type in parentheses or a function type. -/
def parseParenthesized (inner : Inner) (c : Cursor) : Parsed (TypeExpr × Cursor) :=
  match skipFunction? inner c with
  | some c => .ok (.other, c)
  | none => do
    let (t, c) ← inner.type c.next
    let c ← c.expect ")"
    .ok (t, c)

/-- A type that begins with a punctuator. -/
def parsePunct (inner : Inner) (text : String) (c : Cursor) : Parsed (TypeExpr × Cursor) :=
  if text = "(" then parseParenthesized inner c
  else if text = "<" then do
    let c ← c.skipAngles
    match skipFunction? inner c with
    | some c => .ok (.other, c)
    | none => .error (c.unexpected .functionType)
  else if text = "\x7b" then
    if isMapped c then do
      let c ← c.skipGroup
      .ok (.other, c)
    else do
      let (ms, c) ← parseObject inner c
      .ok (.object ms, c)
  else if text = "[" then do
    let c ← c.skipGroup
    .ok (.other, c)
  else
    match c.peekAt? 1 with
    | some number =>
      if text = "-" && number.kind = .number then
        .ok (.literal (.number ("-" ++ number.text)), c.next.next)
      else .error (c.unexpected .typeExpr)
    | none => .error (c.unexpected .typeExpr)

/-- A type without suffixes. -/
def parsePrimary (inner : Inner) (c : Cursor) : Parsed (TypeExpr × Cursor) :=
  match c.peek? with
  | none => .error (c.unexpected .typeExpr)
  | some t =>
    match t.kind with
    | .string => .ok (.literal (.string (t.stringValue?.getD "")), c.next)
    | .number => .ok (.literal (.number t.text), c.next)
    | .template => .ok (.other, c.next)
    | .punct => parsePunct inner t.text c
    | .ident => parseNamed inner t.text c
    | .regex | .jsx => .error (c.unexpected .typeExpr)

/-- The brackets after a type: an array, or an indexed access whose shape is not told. -/
def parseSuffixes (t : TypeExpr) : Nat → Cursor → Parsed (TypeExpr × Cursor)
  | 0, c => .error c.tooDeep
  | n + 1, c =>
    if c.nextIs "[" && !c.newlineNext then
      if c.nthIs 1 "]" then parseSuffixes (.array t) n c.next.next
      else do
        let c ← c.skipGroup
        parseSuffixes .other n c
    else .ok (t, c)

/-- A type without unions and intersections. -/
def parsePostfix (inner : Inner) (c : Cursor) : Parsed (TypeExpr × Cursor) := do
  let (t, c) ← parsePrimary inner c
  parseSuffixes t inner.rounds c

/-- The operands that follow the first one, each after the operator. -/
def parseOperands (operator : String) (operand : Cursor → Parsed (TypeExpr × Cursor)) :
    Nat → Cursor → Parsed (List TypeExpr × Cursor)
  | 0, c => .error c.tooDeep
  | n + 1, c =>
    match c.eat? operator with
    | none => .ok ([], c)
    | some c => do
      let (t, c) ← operand c
      let (more, c) ← parseOperands operator operand n c
      .ok (t :: more, c)

/-- An intersection; a single operand stands for itself. -/
def parseIntersection (inner : Inner) (c : Cursor) : Parsed (TypeExpr × Cursor) := do
  let (t, c) ← parsePostfix inner (c.skip "&")
  match ← parseOperands "&" (parsePostfix inner) inner.rounds c with
  | ([], c) => .ok (t, c)
  | (more, c) => .ok (.intersection (t :: more), c)

/-- A union; a single operand stands for itself. -/
def parseUnion (inner : Inner) (c : Cursor) : Parsed (TypeExpr × Cursor) := do
  let (t, c) ← parseIntersection inner (c.skip "|")
  match ← parseOperands "|" (parseIntersection inner) inner.rounds c with
  | ([], c) => .ok (t, c)
  | (more, c) => .ok (.union (t :: more), c)

/-- A type. -/
def parse (inner : Inner) (c : Cursor) : Parsed (TypeExpr × Cursor) := do
  let (t, c) ← parseUnion inner c
  if c.nextIsIdent "extends" && !c.newlineNext then
    let (_, c) ← parseUnion inner c.next
    let c ← c.expect "?"
    let (_, c) ← inner.type c
    let c ← c.expect ":"
    let (_, c) ← inner.type c
    .ok (.other, c)
  else .ok (t, c)

end TypeExpr

end AppBundler
