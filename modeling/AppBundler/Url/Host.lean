import AppBundler.Url.Basic
import AppBundler.Url.Domain
/-!
# Hosts

A host is a domain name, an address of version 4 in one to four numbers, or an address of version 6 in
brackets. Schemes without fixed rules take any text that has no character of a URL's own syntax.
-/

namespace AppBundler

namespace Url

/-! ## Addresses of version 4 -/

/-- The value of digits in a radix, if there are only such digits. -/
def numberIn? (radix : Nat) (s : List Char) : Option Nat :=
  s.foldlM (fun n c => (hexValue? c).bind fun d => if d < radix then some (n * radix + d) else none) 0

/-- A number of an address: hexadecimal, octal or decimal by how it begins. -/
def ipv4Number? (s : List Char) : Option Nat :=
  match s with
  | [] => none
  | '0' :: 'x' :: r => numberIn? 16 r
  | '0' :: 'X' :: r => numberIn? 16 r
  | '0' :: c :: r => numberIn? 8 (c :: r)
  | s => numberIn? 10 s

/-- The labels of a name without an empty one at its end. -/
def ipv4Parts (s : List Char) : List (List Char) :=
  let ls := labels s
  if ls.getLast? = some [] then ls.dropLast else ls

/-- Whether a name must be an address because its last label is a number. -/
def endsInNumber (s : List Char) : Bool :=
  match (ipv4Parts s).getLast? with
  | none => false
  | some l => (!l.isEmpty && l.all Char.isDigit) || (ipv4Number? l).isSome

/-- The address that a name spells, as a number of 32 bits. -/
def ipv4? (s : List Char) : Option Nat := do
  let parts := ipv4Parts s
  if 4 < parts.length then none
  else
    let numbers ← parts.mapM ipv4Number?
    let last ← numbers.getLast?
    let front := numbers.dropLast
    if Nat.pow 256 (4 - front.length) ≤ last || front.any (fun n => 255 < n) then none
    else some (front.zipIdx.foldl (fun sum (n, i) => sum + n * Nat.pow 256 (3 - i)) last)

/-- The text of an address in four numbers. -/
def ipv4Text (n : Nat) : List Char :=
  List.intercalate ['.']
    ([n / Nat.pow 2 24 % 256, n / Nat.pow 2 16 % 256, n / Nat.pow 2 8 % 256, n % 256].map (Nat.toDigits 10))

/-! ## Addresses of version 6 -/

/-- The pieces between colons. -/
def colonPieces (s : List Char) : List (List Char) :=
  s.foldr (fun c ls =>
    match ls with
    | [] => [[c]]
    | l :: r => if c = ':' then [] :: l :: r else (c :: l) :: r) [[]]

/-- A piece of an address: up to four hexadecimal digits. -/
def ipv6Piece? (s : List Char) : Option Nat :=
  if s.isEmpty || 4 < s.length then none else numberIn? 16 s

/-- The two pieces that four decimal numbers at the end stand for. -/
def ipv6Tail? (s : List Char) : Option (List Nat) := do
  let numbers ← (labels s).mapM fun l =>
    if l.isEmpty || (1 < l.length && l.head? = some '0') then none
    else (numberIn? 10 l).bind fun n => if n < 256 then some n else none
  match numbers with
  | [a, b, c, d] => some [a * 256 + b, c * 256 + d]
  | _ => none

/-- The pieces of one side of an address. -/
def ipv6Side? (s : List Char) : Option (List Nat) :=
  if s.isEmpty then some []
  else
    let pieces := colonPieces s
    match pieces.getLast? with
    | some last =>
      if last.contains '.' then do
        let front ← pieces.dropLast.mapM ipv6Piece?
        let tail ← ipv6Tail? last
        some (front ++ tail)
      else pieces.mapM ipv6Piece?
    | none => none

/-- Splits a text at its first two colons in a row. -/
def atDoubleColon : List Char → Option (List Char × List Char)
  | ':' :: ':' :: r => some ([], r)
  | c :: r => (atDoubleColon r).map fun (a, b) => (c :: a, b)
  | [] => none

/-- The eight pieces of an address. Two colons in a row stand for at least one piece of zero. -/
def ipv6? (s : List Char) : Option (List Nat) :=
  match atDoubleColon s with
  | none => (ipv6Side? s).bind fun ps => if ps.length = 8 then some ps else none
  | some (a, b) => do
    let front ← ipv6Side? a
    let back ← ipv6Side? b
    if a.contains '.' || 7 < front.length + back.length then none
    else some (front ++ List.replicate (8 - front.length - back.length) 0 ++ back)

/-- The length of the run of zeros that begins at each piece. -/
def zeroRuns (ps : List Nat) : List Nat :=
  ps.foldr (fun p runs => (if p = 0 then runs.headD 0 + 1 else 0) :: runs) []

/-- The text of an address. The first longest run of two or more zeros is left out. -/
def ipv6Text (ps : List Nat) : List Char :=
  let hex (qs : List Nat) := List.intercalate [':'] (qs.map (Nat.toDigits 16))
  let runs := zeroRuns ps
  let longest := runs.foldl max 0
  if longest < 2 then hex ps
  else
    let start := runs.findIdx (· = longest)
    hex (ps.take start) ++ [':', ':'] ++ hex (ps.drop (start + longest))

/-! ## Hosts -/

/-- An address in brackets. -/
def bracketed? (s : List Char) : Except UrlError (List Char) :=
  if s.getLast? ≠ some ']' then .error .invalidIpv6
  else
    match ipv6? (s.drop 1).dropLast with
    | some ps => .ok ('[' :: ipv6Text ps ++ [']'])
    | none => .error .invalidIpv6

/-- The host of a scheme with fixed rules. -/
def parseHost (s : List Char) : Except UrlError (List Char) :=
  if s.head? = some '[' then bracketed? s
  else
    match domainToAscii? s with
    | none => .error .invalidDomain
    | some name =>
      if name.isEmpty then .error .emptyHost
      else if endsInNumber name then
        match ipv4? name with
        | some n => .ok (ipv4Text n)
        | none => .error .invalidIpv4
      else .ok name

/-- Characters that no host may have. -/
def isForbiddenInHost (c : Char) : Bool :=
  [Char.ofNat 0, '\t', '\n', '\r', ' ', '#', '/', ':', '<', '>', '?', '@', '[', '\\', ']', '^', '|'].contains c

/-- The host of any other scheme. -/
def parseOpaqueHost (s : List Char) : Except UrlError (List Char) :=
  if s.head? = some '[' then bracketed? s
  else if s.any isForbiddenInHost then .error .invalidDomainCharacter
  else .ok (s.flatMap (encodeChar []))

end Url

end AppBundler
