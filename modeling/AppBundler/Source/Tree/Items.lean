import AppBundler.Source.Tree.Exprs
import AppBundler.Source.Lexer
/-!
# Declarations

The top of a module is read item by item. A statement that declares nothing is passed over.
-/

namespace AppBundler

/-! ## Functions and variables -/

/-- An identifier, if one comes next. -/
def Cursor.identifier? (c : Cursor) : Parsed (Option String × Cursor) :=
  if c.nextIsKind .ident then c.identifier.map fun (n, c) => (some n, c) else .ok (none, c)

/-- A function declaration. -/
def FunctionDecl.parse (inner : Inner) (exported : ExportKind) (c : Cursor) :
    Parsed (FunctionDecl × Cursor) := do
  let isAsync := c.nextIsIdent "async"
  let c := c.skipIdent "async"
  match c.eatIdent? "function" with
  | none => .error (c.unexpected .function)
  | some c =>
    let c := c.skip "*"
    let (name, c) ← c.identifier?
    let (sig, c) ← FunctionSig.parse inner isAsync c
    .ok (⟨name, sig, exported⟩, c)

/-- One variable; nothing for a pattern. -/
def VariableDecl.parse (inner : Inner) (exported : ExportKind) (c : Cursor) :
    Parsed (Option VariableDecl × Cursor) :=
  if c.nextIs "\x7b" || c.nextIs "[" then do
    let c ← c.skipGroup
    let (_, c) ← inner.annotation? c
    match c.eat? "=" with
    | none => .ok (none, c)
    | some c => .ok (none, c.skipExpr)
  else do
    let (name, c) ← c.identifier
    let c := c.skip "!"
    let (type, c) ← inner.annotation? c
    let (init, c) ← inner.initializer? c
    .ok (some ⟨name, type, init, exported⟩, c)

/-- Variables with commas between them. -/
def VariableDecl.parseRest (inner : Inner) (exported : ExportKind) :
    Nat → Cursor → Parsed (List VariableDecl × Cursor)
  | 0, c => .error c.tooDeep
  | n + 1, c => do
    let (v, c) ← VariableDecl.parse inner exported c
    match c.eat? "," with
    | none => .ok (v.toList, c)
    | some c => do
      let (more, c) ← VariableDecl.parseRest inner exported n c
      .ok (v.toList ++ more, c)

/-! ## Types, interfaces and enums -/

/-- A type alias after its `type`. -/
def AliasDecl.parse (inner : Inner) (c : Cursor) : Parsed (AliasDecl × Cursor) := do
  let (name, c) ← c.identifier
  let c ← c.skipAnglesIfNext
  let c ← c.expect "="
  let (type, c) ← inner.type c
  .ok (⟨name, type⟩, c.skip ";")

/-- The names of bases with commas between them. -/
def InterfaceDecl.parseBases : Nat → Cursor → Parsed (List String × Cursor)
  | 0, c => .error c.tooDeep
  | n + 1, c => do
    let (name, c) ← c.qualifiedName
    let c ← c.skipAnglesIfNext
    match c.eat? "," with
    | none => .ok ([name], c)
    | some c => do
      let (more, c) ← parseBases n c
      .ok (name :: more, c)

/-- The bases after `extends`, if it comes next. -/
def InterfaceDecl.parseExtends (rounds : Nat) (c : Cursor) : Parsed (List String × Cursor) :=
  match c.eatIdent? "extends" with
  | none => .ok ([], c)
  | some c => InterfaceDecl.parseBases rounds c

/-- An interface after its `interface`. -/
def InterfaceDecl.parse (inner : Inner) (c : Cursor) : Parsed (InterfaceDecl × Cursor) := do
  let (name, c) ← c.identifier
  let c ← c.skipAnglesIfNext
  let (bases, c) ← InterfaceDecl.parseExtends inner.rounds c
  let (members, c) ← TypeExpr.parseObject inner c
  .ok (⟨name, bases, members⟩, c)

/-- The initializer of an enum member: the value of a single string, else the source text. -/
def EnumMember.parseValue (c : Cursor) : Parsed (String × Cursor) :=
  let later := c.skipExpr
  match c.upTo later with
  | [] => .error (c.unexpected .enumInitializer)
  | [t] => .ok (t.stringValue?.getD t.text, later)
  | ts => .ok (Cursor.spell ts, later)

/-- The initializer of an enum member, if one comes next. -/
def EnumMember.value? (c : Cursor) : Parsed (Option String × Cursor) :=
  match c.eat? "=" with
  | none => .ok (none, c)
  | some c => (EnumMember.parseValue c).map fun (v, c) => (some v, c)

/-- Members of an enum up to its brace. -/
def EnumDecl.parseMembers : Nat → Cursor → Parsed (List EnumMember × Cursor)
  | 0, c => .error c.tooDeep
  | n + 1, c =>
    if c.nextIs "\x7d" then .ok ([], c)
    else do
      let (key, c) ← c.propertyKey
      match key with
      | none => .error (c.unexpected .enumMember)
      | some key =>
        let (value, c) ← EnumMember.value? c
        match c.eat? "," with
        | none => .ok ([⟨key, value⟩], c)
        | some c => do
          let (more, c) ← parseMembers n c
          .ok (⟨key, value⟩ :: more, c)

/-- An enum after its `enum`. -/
def EnumDecl.parse (rounds : Nat) (c : Cursor) : Parsed (EnumDecl × Cursor) := do
  let (name, c) ← c.identifier
  let c ← c.expect "\x7b"
  let (members, c) ← EnumDecl.parseMembers rounds c
  let c ← c.expect "\x7d"
  .ok (⟨name, members⟩, c)

/-! ## Exports -/

/-- A name in an export list, which may be a string. -/
def ExportSpecifier.parseName (c : Cursor) : Parsed (String × Cursor) :=
  match c.peek?.bind (·.stringValue?) with
  | some s => .ok (s, c.next)
  | none => c.identifier

/-- Passes the `type` in front of an entry of an export list, unless it is the entry's name. -/
def ExportSpecifier.skipType (c : Cursor) : Cursor :=
  if c.nextIsIdent "type" && !(c.nthIs 1 "," || c.nthIs 1 "\x7d" || c.nthIsIdent 1 "as") then c.next
  else c

/-- The name after `as`, if it comes next, else the local name. -/
def ExportSpecifier.parseRename (localName : String) (c : Cursor) : Parsed (String × Cursor) :=
  match c.eatIdent? "as" with
  | none => .ok (localName, c)
  | some c => parseName c

/-- Entries of an export list up to its brace. -/
def ExportSpecifier.parseRest : Nat → Cursor → Parsed (List ExportSpecifier × Cursor)
  | 0, c => .error c.tooDeep
  | n + 1, c =>
    if c.nextIs "\x7d" then .ok ([], c)
    else do
      let (localName, c) ← parseName (skipType c)
      let (exportedName, c) ← parseRename localName c
      match c.eat? "," with
      | none => .ok ([⟨localName, exportedName⟩], c)
      | some c => do
        let (more, c) ← parseRest n c
        .ok (⟨localName, exportedName⟩ :: more, c)

/-- An export list with its source. -/
def ExportSpecifier.parseList (rounds : Nat) (c : Cursor) : Parsed (Item × Cursor) := do
  let c ← c.expect "\x7b"
  let (specifiers, c) ← parseRest rounds c
  let c ← c.expect "\x7d"
  match c.eatIdent? "from" with
  | none => .ok (.exportNamed specifiers none, c.skip ";")
  | some c => .ok (.exportNamed specifiers (c.peek?.bind (·.stringValue?)), c.next.skip ";")

namespace Item

/-- Whether a function declaration comes next. -/
def beginsFunction (c : Cursor) : Bool :=
  c.nextIsIdent "function" || (c.nextIsIdent "async" && c.nthIsIdent 1 "function")

/-- The items of a declaration that begins with a word. -/
def parseWord (inner : Inner) (exported : ExportKind) (name : String) (c : Cursor) :
    Parsed (List Item × Cursor) :=
  if beginsFunction c then
    (FunctionDecl.parse inner exported c).map fun (f, c) => ([.function f], c)
  else if name = "const" && c.nthIsIdent 1 "enum" then
    (EnumDecl.parse inner.rounds c.next.next).map fun (e, c) => ([.enum e], c)
  else if ["const", "let", "var"].contains name &&
      (c.nthIsKind 1 .ident || c.nthIs 1 "\x7b" || c.nthIs 1 "[") then
    (VariableDecl.parseRest inner exported inner.rounds c.next).map fun (vs, c) =>
      (vs.map .variable, c.skip ";")
  else if name = "type" && c.nthIsKind 1 .ident && (c.nthIs 2 "=" || c.nthIs 2 "<") then
    (AliasDecl.parse inner c.next).map fun (a, c) => ([.alias a], c)
  else if name = "interface" && c.nthIsKind 1 .ident then
    (InterfaceDecl.parse inner c.next).map fun (i, c) => ([.interface i], c)
  else if name = "enum" && c.nthIsKind 1 .ident then
    (EnumDecl.parse inner.rounds c.next).map fun (e, c) => ([.enum e], c)
  else if name = "class" || name = "abstract" then c.skipClass.map fun c => ([], c)
  else .ok ([], c.skipStatement)

/-- The items of a declaration, or of a statement that declares nothing. -/
def parseDeclaration (inner : Inner) (exported : ExportKind) (c : Cursor) : Parsed (List Item × Cursor) :=
  let c := c.skipIdent "declare"
  match c.peek? with
  | none => .ok ([], c)
  | some t =>
    if t.kind = .ident then parseWord inner exported t.text c else .ok ([], c.skipStatement)

/-- The items of a default export after its `default`. -/
def parseDefault (inner : Inner) (c : Cursor) : Parsed (List Item × Cursor) :=
  if beginsFunction c then
    (FunctionDecl.parse inner .default c).map fun (f, c) => ([.function f], c)
  else if c.nextIsIdent "class" || c.nextIsIdent "abstract" then
    c.skipClass.map fun c => ([.exportDefault .other], c)
  else if c.nextIsIdent "interface" then parseDeclaration inner .default c
  else (inner.expr c).map fun (e, c) => ([.exportDefault e], c.skip ";")

/-- The items of an export after its `export`. -/
def parseExport (inner : Inner) (c : Cursor) : Parsed (List Item × Cursor) :=
  match c.eatIdent? "default" with
  | some c => parseDefault inner c
  | none =>
    if c.nextIs "*" || c.nextIs "=" || c.nextIsIdent "import" then .ok ([], c.skipStatement)
    else
      let c := if c.nextIsIdent "type" && c.nthIs 1 "\x7b" then c.next else c
      if c.nextIs "\x7b" then
        (ExportSpecifier.parseList inner.rounds c).map fun (item, c) => ([item], c)
      else parseDeclaration inner .named c

/-- The items of one statement. -/
def parse (inner : Inner) (c : Cursor) : Parsed (List Item × Cursor) :=
  if c.nextIsIdent "export" && !c.nthIs 1 "." then parseExport inner c.next
  else parseDeclaration inner .none c

/-- The items of all statements that are left. -/
def parseAll (inner : Inner) : Nat → Cursor → Parsed (List Item)
  | 0, c => .error c.tooDeep
  | n + 1, c =>
    if c.atEnd then .ok []
    else
      match c.eat? ";" with
      | some c => parseAll inner n c
      | none => do
        let (here, c) ← parse inner c
        let more ← parseAll inner n c
        .ok (here ++ more)

end Item

namespace Module

/-- The module that tokens spell. -/
def ofTokens (tokens : List Token) : Parsed Module :=
  let depth := tokens.length + 1
  (Item.parseAll (.ofDepth depth) depth (.start tokens)).map fun items => ⟨items⟩

/-- The module of a source text. -/
def ofSource (source : String) : Parsed Module := (tokenize source).bind ofTokens

end Module

end AppBundler
