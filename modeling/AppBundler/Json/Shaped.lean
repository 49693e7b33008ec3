import AppBundler.Json.Parser
import AppBundler.Number.Shortest
import AppBundler.Text.Parts
import AppBundler.Text.Quoted
/-!
# Reading JSON of a known shape

A text is read with the shape in mind that its value must have, so that the first thing that does not fit is
reported with its place. An object may also be written as the array of its fields; members that the shape does
not name are passed over.
-/

namespace AppBundler

namespace Json

/-- What a value must be. -/
inductive Shape where
  | text
  /-- A text or `null`. -/
  | optionalText
  /-- An integer of 32 bits. -/
  | int32
  | list (element : Shape)
  /-- An object with fields, each of which may be optional. -/
  | record (name : String) (fields : List (String × Bool × Shape))

/-- Why a text has no value of the shape. -/
inductive Misfit where
  | problem (p : Problem)
  | wrongType (found expected : String)
  | outOfRange (found expected : String)
  | missing (field : String)
  | repeated (field : String)
  | wrongLength (found : Nat) (name : String) (expected : Nat)
deriving DecidableEq

/-- The wording of a misfit. -/
def Misfit.message : Misfit → String
  | .problem p => p.message
  | .wrongType found expected => "invalid type: " ++ found ++ ", expected " ++ expected
  | .outOfRange found expected => "invalid value: " ++ found ++ ", expected " ++ expected
  | .missing field => "missing field `" ++ field ++ "`"
  | .repeated field => "duplicate field `" ++ field ++ "`"
  | .wrongLength found name expected =>
    "invalid length " ++ toString found ++ ", expected struct " ++ name ++ " with " ++ toString expected ++
      " elements"

/-- A misfit and the characters that follow the place where it showed. -/
structure ShapeFault where
  misfit : Misfit
  rest : List Char

/-- The wording of a fault in a text, with the line and the byte in it where it showed. -/
def ShapeFault.message (text : String) (f : ShapeFault) : String :=
  let before := text.toList.take (text.toList.length - f.rest.length)
  let line := (before.reverse.takeWhile (· ≠ '\n')).reverse
  f.misfit.message ++ " at line " ++ toString (before.count '\n' + 1) ++ " column " ++
    toString (Text.byteLength line)

/-- The outcome of reading a value of a shape. -/
abbrev ShapeReading := Except ShapeFault

namespace Shape

/-- What was read without a shape in mind. -/
def ofReading {α : Type} (r : Reading α) : ShapeReading α := r.mapError fun f => ⟨.problem f.problem, f.rest⟩

/-- A problem at a place. -/
def fail {α : Type} (p : Problem) (rest : List Char) : ShapeReading α := .error ⟨.problem p, rest⟩

/-- How a value is called. -/
def called : Json → String
  | .null => "null"
  | .bool b => "boolean `" ++ toString b ++ "`"
  | .int n => "integer `" ++ toString n ++ "`"
  | .double x => "floating point `" ++ x.toText ++ "`"
  | .string s => "string " ++ Text.shown s
  | .array _ => "sequence"
  | .object _ => "map"

/-- The fault of a text, without blanks in front, that begins with another value than the expected one. Arrays
and objects are not read to their end. -/
def mismatch {α : Type} (expected : String) (s : List Char) : ShapeReading α :=
  match s with
  | '[' :: _ => .error ⟨.wrongType (called (.array [])) expected, s⟩
  | '{' :: _ => .error ⟨.wrongType (called (.object [])) expected, s⟩
  | s => do
    let (v, r) ← ofReading (value 1 0 s)
    .error ⟨.wrongType (called v) expected, r⟩

/-- A text value. -/
def readText (s : List Char) : ShapeReading (Json × List Char) :=
  match skipSpace s with
  | '"' :: r => do
    let (t, r) ← ofReading (stringBody (r.length + 1) r)
    .ok (.string (String.ofList t), r)
  | s => mismatch "a string" s

/-- A text value or `null`. -/
def readOptionalText (s : List Char) : ShapeReading (Json × List Char) :=
  match skipSpace s with
  | 'n' :: r => do
    let r ← ofReading (word ['u', 'l', 'l'] r)
    .ok (.null, r)
  | s => readText s

/-- An integer of 32 bits. -/
def readInt32 (s : List Char) : ShapeReading (Json × List Char) :=
  match skipSpace s with
  | [] => fail .endInValue []
  | c :: r =>
    if c = '-' || c.isDigit then do
      let (v, r) ← ofReading (if c = '-' then number true r else number false (c :: r))
      match v with
      | .int n =>
        if -Int.pow 2 31 ≤ n && n < Int.pow 2 31 then .ok (.int n, r) else .error ⟨.outOfRange (called v) "i32", r⟩
      | v => .error ⟨.wrongType (called v) "i32", r⟩
    else mismatch "i32" (c :: r)

/-- The place of the next element in an array, or what follows the array. -/
def nextElement (first : Bool) (s : List Char) : ShapeReading (Bool × List Char) :=
  match skipSpace s with
  | [] => fail .endInList []
  | c :: r =>
    if c = ']' then .ok (false, r)
    else if first then .ok (true, c :: r)
    else if c = ',' then
      match skipSpace r with
      | [] => fail .endInValue []
      | ']' :: r => fail .trailingComma r
      | s => .ok (true, s)
    else fail .expectedListCommaOrEnd r

/-- The key of the next member of an object with the place of its value, or what follows the object. A key
that was read before is a fault. -/
def nextMember (known : String → Bool) (before : List (String × Json)) (first : Bool) (s : List Char) :
    ShapeReading (Option String × List Char) :=
  match skipSpace s with
  | [] => fail .endInObject []
  | c :: r =>
    if c = '}' then .ok (none, r)
    else do
      let r ←
        if first then
          if c = '"' then .ok r else fail .keyNotString r
        else if c = ',' then
          match skipSpace r with
          | [] => fail .endInValue []
          | '"' :: r => .ok r
          | '}' :: r => fail .trailingComma r
          | _ :: r => fail .keyNotString r
        else fail .expectedObjectCommaOrEnd r
      let (key, r) ← ofReading (stringBody (r.length + 1) r)
      let key := String.ofList key
      if known key && (lookup key before).isSome then .error ⟨.repeated key, skipSpace r⟩
      else
        match skipSpace r with
        | ':' :: r => .ok (some key, r)
        | [] => fail .endInObject []
        | _ :: r => fail .expectedColon r

/-- The end of an array after the last field that it may have. -/
def closeArray (s : List Char) : ShapeReading (List Char) :=
  match skipSpace s with
  | [] => fail .endInList []
  | ']' :: r => .ok r
  | ',' :: r =>
    match skipSpace r with
    | ']' :: r => fail .trailingComma r
    | s => fail .trailingCharacters (s.drop 1)
  | _ :: r => fail .trailingCharacters r

/-- The fields of an object in the order of the shape; one that is not optional must be there. -/
def collect (found : List (String × Json)) (rest : List Char) : List (String × Bool × Shape) →
    ShapeReading (List (String × Json))
  | [] => .ok []
  | (name, optional, _) :: r =>
    match lookup name found with
    | some v => do .ok ((name, v) :: (← collect found rest r))
    | none => if optional then do .ok ((name, .null) :: (← collect found rest r)) else .error ⟨.missing name, rest⟩

mutual

/-- A value of a shape, in front of which blanks may stand, with `depth` levels of nesting left. -/
def read : (fuel depth : Nat) → Shape → List Char → ShapeReading (Json × List Char)
  | 0, _, _, s => fail .tooDeep s
  | _ + 1, _, .text, s => readText s
  | _ + 1, _, .optionalText, s => readOptionalText s
  | _ + 1, _, .int32, s => readInt32 s
  | n + 1, depth, .list element, s =>
    match skipSpace s, depth with
    | '[' :: r, 0 => fail .tooDeep r
    | '[' :: r, d + 1 => do
      let (xs, r) ← readElements n d element true r
      .ok (.array xs, r)
    | s, _ => mismatch "a sequence" s
  | n + 1, depth, .record name fields, s =>
    match skipSpace s, depth with
    | '[' :: r, 0 => fail .tooDeep r
    | '{' :: r, 0 => fail .tooDeep r
    | '[' :: r, d + 1 => do
      let (ms, r) ← readFields n d name fields.length 0 fields r
      .ok (.object ms, r)
    | '{' :: r, d + 1 => do
      let (ms, r) ← readMembers n d fields [] true r
      .ok (.object (← collect ms r fields), r)
    | s, _ => mismatch ("struct " ++ name) s

/-- The elements of an array up to its bracket. -/
def readElements : (fuel depth : Nat) → Shape → (first : Bool) → List Char →
    ShapeReading (List Json × List Char)
  | 0, _, _, _, s => fail .tooDeep s
  | n + 1, depth, element, first, s => do
    match ← nextElement first s with
    | (false, r) => .ok ([], r)
    | (true, r) => do
      let (x, r) ← read n depth element r
      let (xs, r) ← readElements n depth element false r
      .ok (x :: xs, r)

/-- The fields of an object that is written as an array, from field number `index` on. -/
def readFields : (fuel depth : Nat) → (name : String) → (count index : Nat) →
    List (String × Bool × Shape) → List Char → ShapeReading (List (String × Json) × List Char)
  | 0, _, _, _, _, _, s => fail .tooDeep s
  | _ + 1, _, _, _, _, [], s => do .ok ([], ← closeArray s)
  | n + 1, depth, name, count, index, (field, optional, shape) :: fields, s => do
    match ← nextElement (index = 0) s with
    | (false, r) =>
      if optional then do
        let (ms, r) ← readFields n depth name count (index + 1) fields (']' :: r)
        .ok ((field, .null) :: ms, r)
      else .error ⟨.wrongLength index name count, r⟩
    | (true, r) => do
      let (v, r) ← read n depth shape r
      let (ms, r) ← readFields n depth name count (index + 1) fields r
      .ok ((field, v) :: ms, r)

/-- The members of an object up to its brace, after those before them; only those with known keys are kept. -/
def readMembers : (fuel depth : Nat) → List (String × Bool × Shape) → (before : List (String × Json)) →
    (first : Bool) → List Char → ShapeReading (List (String × Json) × List Char)
  | 0, _, _, _, _, s => fail .tooDeep s
  | n + 1, depth, fields, before, first, s => do
    match ← nextMember (fun key => fields.any fun f => f.1 = key) before first s with
    | (none, r) => .ok (before, r)
    | (some key, r) =>
      match fields.find? fun f => f.1 = key with
      | some (_, _, shape) => do
        let (v, r) ← read n depth shape r
        readMembers n depth fields ((key, v) :: before) false r
      | none => do
        let (_, r) ← ofReading (value (2 * r.length + 2) depth r)
        readMembers n depth fields before false r

end

/-- The value of a shape that a text holds, with blanks around it. -/
def parse (shape : Shape) (s : List Char) : ShapeReading Json := do
  let (v, r) ← read (2 * s.length + 8) (depthLimit) shape s
  match skipSpace r with
  | [] => .ok v
  | _ :: r => fail .trailingCharacters r

end Shape

end Json

end AppBundler
