/-!
# Punycode

A label with characters above ASCII is written in ASCII: first the characters of ASCII, then, in rising order
of code points, the places of the others as numbers of variable length whose thresholds adapt.
-/

namespace AppBundler

namespace Punycode

/-- The character of a digit: the letters, then the decimal digits. -/
def digitChar (d : Nat) : Char := if d < 26 then Char.ofNat (97 + d) else Char.ofNat (22 + d)

/-- The value of a digit, in either case. -/
def digitValue? (c : Char) : Option Nat :=
  if 'a' ≤ c && c ≤ 'z' then some (c.toNat - 97)
  else if 'A' ≤ c && c ≤ 'Z' then some (c.toNat - 65)
  else if c.isDigit then some (c.toNat - 22)
  else none

/-- The threshold of the digit that stands at `k`. -/
def threshold (k bias : Nat) : Nat := if k ≤ bias then 1 else min 26 (k - bias)

/-- Scales a step down for the next bias. -/
def scaleDown : Nat → Nat → Nat → Nat
  | 0, k, _ => k
  | n + 1, k, delta => if 455 < delta then scaleDown n (k + 36) (delta / 35) else k + 36 * delta / (delta + 38)

/-- The bias after a step. -/
def adapt (delta count : Nat) (first : Bool) : Nat :=
  let delta := if first then delta / 700 else delta / 2
  scaleDown 64 0 (delta + delta / count)

/-- The digits of a number. -/
def digits : Nat → (k bias q : Nat) → List Char
  | 0, _, _, _ => []
  | n + 1, k, bias, q =>
    let t := threshold k bias
    if q < t then [digitChar q]
    else digitChar (t + (q - t) % (36 - t)) :: digits n (k + 36) bias ((q - t) / (36 - t))

/-- What is carried while the characters are written. -/
structure State where
  delta : Nat
  bias : Nat
  /-- Characters written so far. -/
  done : Nat
  first : Bool
  out : List Char

/-- Passes one character of the label while code point `n` is written. -/
def pass (n : Nat) (s : State) (c : Char) : State :=
  if c.toNat < n then { s with delta := s.delta + 1 }
  else if c.toNat = n then
    ⟨0, adapt s.delta (s.done + 1) s.first, s.done + 1, false, s.out ++ digits 64 36 s.bias s.delta⟩
  else s

/-- Writes the characters above ASCII, from code point `n` on. -/
def write : Nat → (n : Nat) → List Char → State → List Char
  | 0, _, _, s => s.out
  | fuel + 1, n, label, s =>
    match (label.filter fun c => n ≤ c.toNat).map Char.toNat with
    | [] => s.out
    | x :: xs =>
      let m := xs.foldl min x
      let s := { s with delta := s.delta + (m - n) * (s.done + 1) }
      let s := label.foldl (pass m) s
      write fuel (m + 1) label { s with delta := s.delta + 1 }

/-- A label in ASCII. -/
def encode (label : List Char) : List Char :=
  let basic := label.filter fun c => c.toNat < 0x80
  let start := basic ++ if basic.isEmpty then [] else ['-']
  write label.length 0x80 label ⟨0, 72, basic.length, true, start⟩

/-- The number that digits at the front spell, and what follows them. -/
def readNumber : Nat → (k bias weight : Nat) → List Char → Option (Nat × List Char)
  | 0, _, _, _, _ => none
  | _ + 1, _, _, _, [] => none
  | n + 1, k, bias, weight, c :: r =>
    match digitValue? c with
    | none => none
    | some d =>
      let t := threshold k bias
      if d < t then some (d * weight, r)
      else (readNumber n (k + 36) bias (weight * (36 - t)) r).map fun (v, r) => (d * weight + v, r)

/-- Puts the characters that digits spell into those read so far. -/
def readInto : Nat → (n i bias : Nat) → (first : Bool) → List Nat → List Char → Option (List Nat)
  | 0, _, _, _, _, out, _ => some out
  | _ + 1, _, _, _, _, out, [] => some out
  | fuel + 1, n, i, bias, first, out, s =>
    match readNumber 64 36 bias 1 s with
    | none => none
    | some (v, r) =>
      let count := out.length + 1
      let n := n + (i + v) / count
      let place := (i + v) % count
      if 0x10FFFF < n then none
      else
        readInto fuel n (place + 1) (adapt v count first) false (out.take place ++ n :: out.drop place) r

/-- The label that a text in ASCII stands for. -/
def decode? (s : List Char) : Option (List Char) :=
  let tail := (s.reverse.takeWhile (· ≠ '-')).reverse
  let head := s.take (s.length - tail.length - 1)
  let points := readInto s.length 0x80 0 72 true (head.map Char.toNat) (if head.isEmpty then s else tail)
  points.map fun ns => ns.map Char.ofNat

end Punycode

end AppBundler
