import AppBundler.Number.Double
/-!
# The fewest digits that read back

A double is printed with the fewest decimal digits that round to it, and of those with the nearest. On
each grid of decimals only the two neighbours of the value can be hit; one digit more makes the grid ten
times finer, and seventeen digits always suffice.
-/

namespace AppBundler

namespace Double

/-- The reals that round to a double of magnitude `a / b` lie between `low / scale` and `high / scale`, the
ends included when the mantissa is even. -/
structure Interval where
  low : Nat
  value : Nat
  high : Nat
  scale : Nat
  closed : Bool

/-- The interval of a double that is not zero. Below a power of two the doubles are half as far apart. -/
def interval (x : Double) : Interval :=
  let m := x.mantissa
  let below := if m = Nat.pow 2 52 && x.exponent > -1074 then 1 else 2
  let (up, scale) := if 0 ≤ x.exponent then (Nat.pow 2 x.exponent.toNat, 4) else (1, 4 * Nat.pow 2 (-x.exponent).toNat)
  ⟨(4 * m - below) * up, 4 * m * up, (4 * m + 2) * up, scale, m % 2 = 0⟩

/-- Whether `num / den` lies in the interval. -/
def Interval.contains (i : Interval) (num den : Nat) : Bool :=
  let v := num * i.scale
  if i.closed then i.low * den ≤ v && v ≤ i.high * den else i.low * den < v && v < i.high * den

/-- The distance of `num / den` from the middle, over the common denominator. -/
def Interval.distance (i : Interval) (num den : Nat) : Nat :=
  let v := num * i.scale
  let w := i.value * den
  if v ≤ w then w - v else v - w

/-- Counts how often a quotient below one can be multiplied by ten before it reaches one. -/
def leadingZeros : Nat → Nat → Nat → Nat
  | 0, _, _ => 0
  | n + 1, num, den => if den ≤ num then 0 else leadingZeros n (num * 10) den + 1

/-- Counts how often a quotient can be divided by ten before it falls below ten. -/
def leadingTens : Nat → Nat → Nat → Nat
  | 0, _, _ => 0
  | n + 1, num, den => if num < den * 10 then 0 else leadingTens n num (den * 10) + 1

/-- The power of ten of the first digit of a positive quotient. -/
def magnitude (num den : Nat) : Int :=
  if den ≤ num then leadingTens 400 num den else -(leadingZeros 400 num den : Int)

/-- The neighbours on the grid of the multiples of `10 ^ k` that lie in the interval, the nearer one
first. -/
def onGrid (i : Interval) (k : Int) : Option Nat :=
  let (num, den) := if 0 ≤ k then (Nat.pow 10 k.toNat, 1) else (1, Nat.pow 10 (-k).toNat)
  let c := i.value * den / (i.scale * num)
  let lower := i.contains (c * num) den
  let upper := i.contains ((c + 1) * num) den
  if lower && upper then
    if i.distance ((c + 1) * num) den < i.distance (c * num) den then some (c + 1) else some c
  else if lower then some c
  else if upper then some (c + 1)
  else none

/-- Tries grids from coarse to fine. -/
def firstGrid (i : Interval) : Nat → Int → Nat × Int
  | 0, k => (i.value / i.scale, k)
  | n + 1, k =>
    match onGrid i k with
    | some c => (c, k)
    | none => firstGrid i n (k - 1)

/-- Drops the zeros at the end of a number, raising its power of ten instead. -/
def dropZeros : Nat → Nat → Int → Nat × Int
  | 0, d, k => (d, k)
  | n + 1, d, k => if d ≠ 0 && d % 10 = 0 then dropZeros n (d / 10) (k + 1) else (d, k)

/-- The shortest decimal `digits · 10 ^ power` that rounds to a double other than zero. -/
def shortest (x : Double) : Nat × Int :=
  let i := x.interval
  let top := magnitude i.value i.scale
  let (d, k) := firstGrid i 18 (top + 1)
  dropZeros 20 d k

/-- The decimal digits of a number. -/
def digitChars (n : Nat) : List Char := Nat.toDigits 10 n

/-- The text of a double. With the first digit at `10 ^ e` it is positional for `-5 ≤ e ≤ 15`, always with a
fraction, and otherwise scientific with a signed exponent. -/
def toText (x : Double) : String :=
  let sign := if x.negative then ['-'] else []
  if x.mantissa = 0 then String.ofList (sign ++ ['0', '.', '0'])
  else
    let (d, k) := x.shortest
    let ds := digitChars d
    let e : Int := k + ds.length - 1
    let body :=
      if -5 ≤ e && e ≤ 15 then
        if 0 ≤ k then ds ++ List.replicate k.toNat '0' ++ ['.', '0']
        else if 0 ≤ e then
          let whole := (e + 1).toNat
          ds.take whole ++ '.' :: ds.drop whole
        else '0' :: '.' :: List.replicate (-e - 1).toNat '0' ++ ds
      else
        let mark := if 0 ≤ e then '+' else '-'
        let tail := ds.drop 1
        ds.take 1 ++ (if tail.isEmpty then [] else '.' :: tail) ++ 'e' :: mark :: digitChars e.natAbs
    String.ofList (sign ++ body)

end Double

end AppBundler
