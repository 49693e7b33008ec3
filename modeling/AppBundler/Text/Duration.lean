/-!
# Durations

A span of time is counted in milliseconds. It is shown in the largest unit that it fills, with as many places
after the point as it needs.
-/

namespace AppBundler

namespace Duration

/-- The milliseconds of a number of seconds. -/
def seconds (n : Nat) : Nat := 1000 * n

/-- Three digits with the zeros at their end left out, after a point; nothing for zero. -/
def fraction (n : Nat) : List Char :=
  if n = 0 then []
  else
    let digits := [n / 100 % 10, n / 10 % 10, n % 10].map Nat.digitChar
    '.' :: (digits.reverse.dropWhile (· = '0')).reverse

/-- The text of a duration. -/
def text (milliseconds : Nat) : String :=
  if milliseconds = 0 then "0ns"
  else if milliseconds < 1000 then toString milliseconds ++ "ms"
  else toString (milliseconds / 1000) ++ String.ofList (fraction (milliseconds % 1000)) ++ "s"

end Duration

end AppBundler
