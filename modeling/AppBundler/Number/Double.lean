/-!
# Double precision numbers

A finite number of 53 significant bits is kept as sign, mantissa and power of two, so that rounding,
reading and printing are plain arithmetic on natural numbers.
-/

namespace AppBundler

/-- The finite number `± mantissa · 2 ^ exponent`. Either `2 ^ 52 ≤ mantissa < 2 ^ 53` and
`-1074 ≤ exponent ≤ 971`, or `mantissa < 2 ^ 52` and the exponent is `-1074`; so equal values have equal
forms, and the two zeros differ in the sign. -/
structure Double where
  negative : Bool
  mantissa : Nat
  exponent : Int
deriving DecidableEq, Inhabited

namespace Double

/-- The zero of the given sign. -/
def zero (negative : Bool) : Double := ⟨negative, 0, -1074⟩

/-- The same magnitude with the other sign. -/
def neg (x : Double) : Double := { x with negative := !x.negative }

/-- Rounds a quotient to the nearest natural number, a tie to the even one. -/
def roundDiv (num den : Nat) : Nat :=
  let q := num / den
  let twice := 2 * (num % den)
  if twice < den then q
  else if den < twice then q + 1
  else if q % 2 = 0 then q else q + 1

/-- `num / den · 2 ^ (-e)` as a quotient of natural numbers. -/
def scaled (num den : Nat) (e : Int) : Nat × Nat :=
  if 0 ≤ e then (num, den * Nat.pow 2 e.toNat) else (num * Nat.pow 2 (-e).toNat, den)

/-- The power of two whose multiples in `[2 ^ 52, 2 ^ 53)` are nearest to `num / den`, not below the one of
the subnormal numbers. -/
def exponentFor (num den : Nat) : Int :=
  let guess : Int := (num.log2 : Int) - (den.log2 : Int) - 52
  let (a, b) := scaled num den guess
  -- the guess is right or one too large
  max (-1074) (if a / b < Nat.pow 2 52 then guess - 1 else guess)

/-- The double nearest to `num / den`, a tie going to the even mantissa; `none` beyond the largest finite
one. The denominator is positive. -/
def ofRatio? (negative : Bool) (num den : Nat) : Option Double :=
  if num = 0 then some (zero negative)
  else
    let e := exponentFor num den
    let (a, b) := scaled num den e
    let m := roundDiv a b
    let (m, e) := if m = Nat.pow 2 53 then (Nat.pow 2 52, e + 1) else (m, e)
    if 971 < e then none else some ⟨negative, m, e⟩

/-- The magnitude as a quotient of natural numbers. -/
def ratio (x : Double) : Nat × Nat :=
  if 0 ≤ x.exponent then (x.mantissa * Nat.pow 2 x.exponent.toNat, 1)
  else (x.mantissa, Nat.pow 2 (-x.exponent).toNat)

/-- The double nearest to a natural number of at most 64 bits. -/
def ofNat (negative : Bool) (n : Nat) : Option Double := ofRatio? negative n 1

/-- The product with `10 ^ k`, rounded; `none` when it is too large. -/
def timesPowerOfTen (x : Double) (k : Nat) : Option Double :=
  let (a, b) := x.ratio
  -- the factor is itself rounded to a double before the product is
  match ofRatio? false (Nat.pow 10 k) 1 with
  | none => none
  | some p =>
    let (c, d) := p.ratio
    ofRatio? x.negative (a * c) (b * d)

/-- The quotient by `10 ^ k`, rounded. -/
def overPowerOfTen (x : Double) (k : Nat) : Option Double :=
  let (a, b) := x.ratio
  match ofRatio? false (Nat.pow 10 k) 1 with
  | none => none
  | some p =>
    let (c, d) := p.ratio
    ofRatio? x.negative (a * d) (b * c)

end Double

end AppBundler
