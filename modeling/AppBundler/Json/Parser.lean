import AppBundler.Json.Value
import AppBundler.Number.Reading
/-!
# Reading JSON

A reader takes the characters left and returns a value with the characters after it. A fault carries the
characters left where it showed, from which the place in the text is told.
-/

namespace AppBundler

namespace Json

/-- What is wrong with a JSON text. -/
inductive Problem where
  | endInList
  | endInObject
  | endInString
  | endInValue
  | expectedColon
  | expectedListCommaOrEnd
  | expectedObjectCommaOrEnd
  | expectedIdent
  | expectedValue
  | invalidEscape
  | invalidNumber
  | numberOutOfRange
  | controlCharacter
  | keyNotString
  | loneSurrogate
  | trailingComma
  | trailingCharacters
  | cutSurrogate
  | tooDeep
deriving DecidableEq

/-- The wording of a problem. -/
def Problem.message : Problem → String
  | .endInList => "EOF while parsing a list"
  | .endInObject => "EOF while parsing an object"
  | .endInString => "EOF while parsing a string"
  | .endInValue => "EOF while parsing a value"
  | .expectedColon => "expected `:`"
  | .expectedListCommaOrEnd => "expected `,` or `]`"
  | .expectedObjectCommaOrEnd => "expected `,` or `\x7d`"
  | .expectedIdent => "expected ident"
  | .expectedValue => "expected value"
  | .invalidEscape => "invalid escape"
  | .invalidNumber => "invalid number"
  | .numberOutOfRange => "number out of range"
  | .controlCharacter => "control character (\\u0000-\\u001F) found while parsing a string"
  | .keyNotString => "key must be a string"
  | .loneSurrogate => "lone leading surrogate in hex escape"
  | .trailingComma => "trailing comma"
  | .trailingCharacters => "trailing characters"
  | .cutSurrogate => "unexpected end of hex escape"
  | .tooDeep => "recursion limit exceeded"

/-- A problem and the characters that follow the place where it showed. -/
structure Fault where
  problem : Problem
  rest : List Char

/-- The outcome of a reader: what was read, or a fault. -/
abbrev Reading := Except Fault

/-- The four characters that may stand between tokens. -/
def isSpace (c : Char) : Bool := c = ' ' || c = '\n' || c = '\t' || c = '\r'

/-- Drops the blanks in front. -/
def skipSpace (s : List Char) : List Char := s.dropWhile isSpace

/-- Reads the rest of a word that began with its first letter. -/
def word : (rest : List Char) → List Char → Reading (List Char)
  | [], s => .ok s
  | _ :: _, [] => .error ⟨.endInValue, []⟩
  | w :: ws, c :: s => if w = c then word ws s else .error ⟨.expectedIdent, s⟩

/-- Four hexadecimal digits. -/
def hexEscape : List Char → Reading (Nat × List Char)
  | a :: b :: c :: d :: r =>
    match Number.digitsFrom 16 0 [a, b, c, d] with
    | some n => .ok (n, r)
    | none => .error ⟨.invalidEscape, r⟩
  | _ => .error ⟨.endInString, []⟩

/-- The character after a backslash and a `u`: one unit, or two that form a pair of surrogates. -/
def unicodeEscape (s : List Char) : Reading (Char × List Char) := do
  let (n, r) ← hexEscape s
  if 0xDC00 ≤ n ∧ n ≤ 0xDFFF then .error ⟨.loneSurrogate, r⟩
  else if 0xD800 ≤ n ∧ n ≤ 0xDBFF then
    match r with
    | '\\' :: 'u' :: r => do
      let (m, r) ← hexEscape r
      if 0xDC00 ≤ m ∧ m ≤ 0xDFFF then
        .ok (Char.ofNat (0x10000 + (n - 0xD800) * 0x400 + (m - 0xDC00)), r)
      else .error ⟨.loneSurrogate, r⟩
    | ['\\'] | [] => .error ⟨.endInString, []⟩
    | '\\' :: _ :: r => .error ⟨.cutSurrogate, r⟩
    | _ :: r => .error ⟨.cutSurrogate, r⟩
  else .ok (Char.ofNat n, r)

/-- The character that an escape of one letter stands for. -/
def simpleEscape (c : Char) : Option Char :=
  if c = '"' ∨ c = '\\' ∨ c = '/' then some c
  else if c = 'b' then some '\x08'
  else if c = 'f' then some '\x0c'
  else if c = 'n' then some '\n'
  else if c = 'r' then some '\r'
  else if c = 't' then some '\t'
  else none

/-- The characters of a string up to its closing quote. -/
def stringBody : Nat → List Char → Reading (List Char × List Char)
  | 0, s => .error ⟨.endInString, s⟩
  | _ + 1, [] => .error ⟨.endInString, []⟩
  | n + 1, c :: r =>
    if c = '"' then .ok ([], r)
    else if c = '\\' then
      match r with
      | [] => .error ⟨.endInString, []⟩
      | e :: r => do
        let (x, r) ←
          if e = 'u' then unicodeEscape r
          else
            match simpleEscape e with
            | some x => .ok (x, r)
            | none => .error ⟨.invalidEscape, r⟩
        let (xs, r) ← stringBody n r
        .ok (x :: xs, r)
    else if c.toNat < 0x20 then .error ⟨.controlCharacter, r⟩
    else do
      let (xs, r) ← stringBody n r
      .ok (c :: xs, r)

/-- Scales digits that were kept to 64 bits by a power of ten. The digits are rounded to a double first and
powers beyond `10 ^ 308` go in steps; a number that is too large has no value. -/
def scaleFrom : Nat → Double → Int → Option Double
  | 0, x, _ => some x
  | n + 1, x, p =>
    if p.natAbs ≤ 308 then
      if 0 ≤ p then x.timesPowerOfTen p.natAbs else x.overPowerOfTen p.natAbs
    else if x.mantissa = 0 then some x
    else if 0 ≤ p then none
    else (x.overPowerOfTen 308).bind fun y => scaleFrom n y (p + 308)

/-- The double of a sign, digits of at most 64 bits and a power of ten. -/
def scale (negative : Bool) (digits : Nat) (power : Int) (rest : List Char) : Reading (Json × List Char) :=
  match (Double.ofNat negative digits).bind fun x => scaleFrom 4 x power with
  | some x => .ok (.double x, rest)
  | none => .error ⟨.numberOutOfRange, rest⟩

/-- Takes decimal digits as long as their value stays below `2 ^ 64`; says how many were taken. -/
def takeDigits : Nat → List Char → Nat × Nat × List Char
  | acc, [] => (acc, 0, [])
  | acc, c :: r =>
    if c.isDigit && acc * 10 + (c.toNat - 48) < Nat.pow 2 64 then
      let (v, k, r) := takeDigits (acc * 10 + (c.toNat - 48)) r
      (v, k + 1, r)
    else (acc, 0, c :: r)

/-- The part of a number from its exponent on. -/
def exponentPart (negative : Bool) (digits : Nat) (power : Int) (s : List Char) : Reading (Json × List Char) :=
  let (down, r) := match s with
    | '+' :: r => (false, r)
    | '-' :: r => (true, r)
    | r => (false, r)
  match r with
  | [] => .error ⟨.endInValue, []⟩
  | c :: r' =>
    if !c.isDigit then .error ⟨.invalidNumber, r'⟩
    else
      let ds := r.takeWhile Char.isDigit
      let rest := r.dropWhile Char.isDigit
      let e := (Number.digitsFrom 10 0 ds).getD 0
      if e < Nat.pow 2 31 then scale negative digits (if down then power - e else power + e) rest
      else if digits ≠ 0 && !down then .error ⟨.numberOutOfRange, rest⟩
      else .ok (.double (Double.zero negative), rest)

/-- The part of a number from the digits after its point on. Digits beyond 64 bits are dropped. -/
def fractionPart (negative : Bool) (digits : Nat) (power : Int) (s : List Char) : Reading (Json × List Char) :=
  let (v, k, r) := takeDigits digits s
  match k, r with
  | 0, [] => .error ⟨.endInValue, []⟩
  | 0, c :: r' =>
    if c.isDigit then afterDigits v power (r.dropWhile Char.isDigit) else .error ⟨.invalidNumber, r'⟩
  | k, r => afterDigits v (power - k) (r.dropWhile Char.isDigit)
where
  /-- An exponent may follow the digits. -/
  afterDigits (v : Nat) (power : Int) (r : List Char) : Reading (Json × List Char) :=
    match r with
    | 'e' :: r | 'E' :: r => exponentPart negative v power r
    | r => scale negative v power r

/-- A number without its minus sign. An integer beyond 64 bits, and minus zero, is a double. -/
def number (negative : Bool) : List Char → Reading (Json × List Char)
  | [] => .error ⟨.endInValue, []⟩
  | '0' :: r =>
    match r with
    | c :: r' => if c.isDigit then .error ⟨.invalidNumber, r'⟩ else afterWhole 0 0 r
    | [] => afterWhole 0 0 []
  | c :: r =>
    if c.isDigit then
      let (v, _, r) := takeDigits 0 (c :: r)
      let more := r.takeWhile Char.isDigit
      afterWhole v more.length (r.dropWhile Char.isDigit)
    else .error ⟨.invalidNumber, r⟩
where
  /-- What may follow the whole part, of which `dropped` digits did not fit. -/
  afterWhole (v dropped : Nat) (r : List Char) : Reading (Json × List Char) :=
    match r with
    | '.' :: r => fractionPart negative v dropped r
    | 'e' :: r | 'E' :: r => exponentPart negative v dropped r
    | r =>
      if dropped ≠ 0 then scale negative v dropped r
      else if !negative then .ok (.int v, r)
      else if v = 0 || Nat.pow 2 63 < v then scale true v 0 r
      else .ok (.int (-v), r)

mutual

/-- A value, in front of which blanks may stand, with `depth` levels of nesting left. -/
def value : (fuel depth : Nat) → List Char → Reading (Json × List Char)
  | 0, _, s => .error ⟨.tooDeep, s⟩
  | n + 1, depth, s =>
    match skipSpace s with
    | [] => .error ⟨.endInValue, []⟩
    | c :: r =>
      if c = 'n' then do
        let r ← word ['u', 'l', 'l'] r
        .ok (.null, r)
      else if c = 't' then do
        let r ← word ['r', 'u', 'e'] r
        .ok (.bool true, r)
      else if c = 'f' then do
        let r ← word ['a', 'l', 's', 'e'] r
        .ok (.bool false, r)
      else if c = '-' then number true r
      else if c.isDigit then number false (c :: r)
      else if c = '"' then do
        let (s, r) ← stringBody (r.length + 1) r
        .ok (.string (String.ofList s), r)
      else if c = '[' then
        match depth with
        | 0 => .error ⟨.tooDeep, r⟩
        | d + 1 => do
          let (xs, r) ← elements n d true r
          .ok (.array xs, r)
      else if c = '{' then
        match depth with
        | 0 => .error ⟨.tooDeep, r⟩
        | d + 1 => do
          let (ms, r) ← members n d true r
          .ok (.object ms, r)
      else .error ⟨.expectedValue, r⟩

/-- The elements of an array up to its bracket. -/
def elements : (fuel depth : Nat) → (first : Bool) → List Char → Reading (List Json × List Char)
  | 0, _, _, s => .error ⟨.tooDeep, s⟩
  | n + 1, depth, first, s =>
    match skipSpace s with
    | [] => .error ⟨.endInList, []⟩
    | c :: r =>
      if c = ']' then .ok ([], r)
      else do
        let s ←
          if first then .ok (c :: r)
          else if c = ',' then
            match skipSpace r with
            | [] => .error ⟨.endInValue, []⟩
            | ']' :: r => .error ⟨.trailingComma, r⟩
            | s => .ok s
          else .error ⟨.expectedListCommaOrEnd, r⟩
        let (x, r) ← value n depth s
        let (xs, r) ← elements n depth false r
        .ok (x :: xs, r)

/-- The members of an object up to its brace, as they are written. -/
def members : (fuel depth : Nat) → (first : Bool) → List Char → Reading (List (String × Json) × List Char)
  | 0, _, _, s => .error ⟨.tooDeep, s⟩
  | n + 1, depth, first, s =>
    match skipSpace s with
    | [] => .error ⟨.endInObject, []⟩
    | c :: r =>
      if c = '}' then .ok ([], r)
      else do
        let r ←
          if first then
            if c = '"' then .ok r else .error ⟨.keyNotString, r⟩
          else if c = ',' then
            match skipSpace r with
            | [] => .error ⟨.endInValue, []⟩
            | '"' :: r => .ok r
            | '}' :: r => .error ⟨.trailingComma, r⟩
            | _ :: r => .error ⟨.keyNotString, r⟩
          else .error ⟨.expectedObjectCommaOrEnd, r⟩
        let (k, r) ← stringBody (r.length + 1) r
        match skipSpace r with
        | ':' :: r => do
          let (v, r) ← value n depth r
          let (ms, r) ← members n depth false r
          .ok ((String.ofList k, v) :: ms, r)
        | [] => .error ⟨.endInObject, []⟩
        | _ :: r => .error ⟨.expectedColon, r⟩

end

/-- How many arrays and objects may stand in each other. -/
def depthLimit : Nat := 127

/-- The value of a text that holds one value and blanks around it, with repeated keys as they are written. -/
def parseAsWritten (s : List Char) : Reading Json := do
  let (v, r) ← value (2 * s.length + 2) depthLimit s
  match skipSpace r with
  | [] => .ok v
  | _ :: r => .error ⟨.trailingCharacters, r⟩

/-- The value of a text. A repeated key has its first place and its last value. -/
def parseChars (s : List Char) : Reading Json := (parseAsWritten s).map merged

/-- The value of a text. -/
def parse (s : String) : Reading Json := parseChars s.toList

end Json

end AppBundler
