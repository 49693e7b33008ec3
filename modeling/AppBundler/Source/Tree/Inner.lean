import AppBundler.Source.Tree
import AppBundler.Source.Cursor
/-!
# What stands inside

Types and expressions contain each other. Each of their parsers is written over the parsers for what stands
inside, given as a record, and the record for one level is built from the record for the level below. A
parser hands over to a parser inside only after it has taken a token, so as many levels as there are tokens
are enough, and as many rounds of any list.
-/

namespace AppBundler

/-- The parsers for what stands inside a type or an expression. -/
structure Inner where
  /-- How many rounds a list may take. -/
  rounds : Nat
  type : Cursor → Parsed (TypeExpr × Cursor)
  /-- A type without unions and intersections. -/
  postfixType : Cursor → Parsed (TypeExpr × Cursor)
  /-- A type without suffixes. -/
  primaryType : Cursor → Parsed (TypeExpr × Cursor)
  expr : Cursor → Parsed (Expr × Cursor)
  /-- An operand with its suffixes. -/
  postfixExpr : Cursor → Parsed (Expr × Cursor)
  /-- An operand without suffixes. -/
  primaryExpr : Cursor → Parsed (Expr × Cursor)

/-- The lowest level, where nothing more may stand inside. -/
def Inner.nothing : Inner :=
  ⟨0, fun c => .error c.tooDeep, fun c => .error c.tooDeep, fun c => .error c.tooDeep,
    fun c => .error c.tooDeep, fun c => .error c.tooDeep, fun c => .error c.tooDeep⟩

/-- The type after a colon, if one comes next. -/
def Inner.annotation? (inner : Inner) (c : Cursor) : Parsed (Option TypeExpr × Cursor) :=
  match c.eat? ":" with
  | none => .ok (none, c)
  | some c => (inner.type c).map fun (t, c) => (some t, c)

/-- The expression after an equals sign, if one comes next. -/
def Inner.initializer? (inner : Inner) (c : Cursor) : Parsed (Option Expr × Cursor) :=
  match c.eat? "=" with
  | none => .ok (none, c)
  | some c => (inner.expr c).map fun (e, c) => (some e, c)

/-- Whether the next token begins a key: it may follow a modifier. -/
def Cursor.keyAfterNext (c : Cursor) : Bool :=
  c.nthIsKind 1 .ident || c.nthIsKind 1 .string || c.nthIsKind 1 .number

/-- The key of a property: an identifier, a string or a number. A computed key is passed over and has no
name. -/
def Cursor.propertyKey (c : Cursor) : Parsed (Option String × Cursor) :=
  match c.peek? with
  | none => .error (c.unexpected .propertyKey)
  | some t =>
    match t.kind with
    | .ident | .number => .ok (some t.text, c.next)
    | .string => .ok (t.stringValue?, c.next)
    | _ =>
      if t.isPunct "[" then do
        let c ← c.skipGroup
        .ok (none, c)
      else .error (c.unexpected .propertyKey)

end AppBundler
