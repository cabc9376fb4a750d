import Spillway.Text.Number

/-!
# Lengths of time

A length of time given in milliseconds, written in the largest unit out of seconds,
milliseconds and nanoseconds that keeps its whole part above zero.
-/

namespace Spillway.Text

/-- Drop the zeros at the end of a string of digits. -/
def withoutTrailingZeros (cs : List Char) : List Char :=
  (cs.reverse.dropWhile (· == '0')).reverse

/-- Milliseconds as a length of time; nothing at all is zero nanoseconds. -/
def spanText (millis : Nat) : String :=
  if millis = 0 then "0ns"
  else if millis < 1000 then toString millis ++ "ms"
  else
    let fraction := withoutTrailingZeros (zeroPadded 3 (millis % 1000)).toList
    let point := if fraction.isEmpty then "" else "." ++ String.ofList fraction
    toString (millis / 1000) ++ point ++ "s"

end Spillway.Text
