import AppBundler.Number.Double
/-!
# Reading numbers

Signed integers of 64 bits and decimals, as they stand in source text, header values and settings.
-/

namespace AppBundler

namespace Number

/-- The value of a digit in a radix up to 16. -/
def digit? (radix : Nat) (c : Char) : Option Nat :=
  let v :=
    if '0' ≤ c && c ≤ '9' then c.toNat - '0'.toNat
    else if 'a' ≤ c && c ≤ 'f' then c.toNat - 'a'.toNat + 10
    else if 'A' ≤ c && c ≤ 'F' then c.toNat - 'A'.toNat + 10
    else 16
  if v < radix then some v else none

/-- The value of digits read after the value `acc`. -/
def digitsFrom (radix : Nat) : Nat → List Char → Option Nat
  | acc, [] => some acc
  | acc, c :: r =>
    match digit? radix c with
    | some v => digitsFrom radix (acc * radix + v) r
    | none => none

/-- The value of one or more digits. -/
def digits? (radix : Nat) (s : List Char) : Option Nat :=
  if s.isEmpty then none else digitsFrom radix 0 s

/-- An integer in `[-2 ^ 63, 2 ^ 63)`: one or more digits after an optional sign. -/
def int64? (radix : Nat) (s : List Char) : Option Int :=
  let inRange (i : Int) : Option Int := if -Int.pow 2 63 ≤ i && i < Int.pow 2 63 then some i else none
  match s with
  | '-' :: r => (digits? radix r).bind fun n => inRange (-n)
  | '+' :: r => (digits? radix r).bind fun n => inRange n
  | r => (digits? radix r).bind fun n => inRange n

/-- A number in `[0, 2 ^ 64)`: one or more digits after an optional plus sign. -/
def nat64? (s : List Char) : Option Nat :=
  let r := match s with
    | '+' :: r => r
    | r => r
  (digits? 10 r).bind fun n => if n < Nat.pow 2 64 then some n else none

/-- The double nearest to `digits · 10 ^ power`, or `none` beyond the largest one. A power far outside the
range is decided by the count of digits alone. -/
def ofDecimal? (negative : Bool) (digits : Nat) (power : Int) : Option Double :=
  if digits = 0 then some (Double.zero negative)
  else
    let size : Int := (Nat.toDigits 10 digits).length + power
    if 400 < size then none
    else if size < -400 then some (Double.zero negative)
    else if 0 ≤ power then Double.ofRatio? negative (digits * Nat.pow 10 power.toNat) 1
    else Double.ofRatio? negative digits (Nat.pow 10 (-power).toNat)

/-- The digits at the front of a text, and what follows them. -/
def spanDigits (s : List Char) : List Char × List Char := s.span Char.isDigit

/-- An unsigned decimal with an optional fraction and exponent and at least one digit before or after the
point; the answer is `none` when the text is no decimal, and `some none` when the number is too large. -/
def decimal? (negative : Bool) (s : List Char) : Option (Option Double) :=
  let (whole, r) := spanDigits s
  let (fraction, r) := match r with
    | '.' :: r => spanDigits r
    | r => ([], r)
  if whole.isEmpty && fraction.isEmpty then none
  else
    let digits := (digitsFrom 10 0 (whole ++ fraction)).getD 0
    let power? : Option Int := match r with
      | [] => some 0
      | c :: r =>
        if c = 'e' || c = 'E' then
          match r with
          | '-' :: r => (digits? 10 r).map fun n => -(n : Int)
          | '+' :: r => (digits? 10 r).map fun n => (n : Int)
          | r => (digits? 10 r).map fun n => (n : Int)
        else none
    power?.map fun p => ofDecimal? negative digits (p - fraction.length)

end Number

end AppBundler
