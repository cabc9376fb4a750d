import Spillway.Text.Number

/-!
# Instants

An instant is a count of nanoseconds since the start of 1970 in universal time. It is
written as date and time with the fewest fraction digits out of 0, 3, 6 and 9 that are exact.
-/

namespace Spillway.Text

/-- A day of the proleptic Gregorian calendar. -/
structure Date where
  year : Nat
  month : Nat
  day : Nat
  deriving DecidableEq, Repr

/-- The date that lies `days` days after the first of January 1970.

Years are counted from March inside cycles of 400 years, so that a leap day ends its year. -/
def Date.ofDays (days : Nat) : Date :=
  let shifted := days + 719468
  let cycle := shifted / 146097
  let inCycle := shifted % 146097
  let year := (inCycle - inCycle / 1460 + inCycle / 36524 - inCycle / 146096) / 365
  let inYear := inCycle - (365 * year + year / 4 - year / 100)
  let march := (5 * inYear + 2) / 153
  let day := inYear - (153 * march + 2) / 5 + 1
  let month := if march < 10 then march + 3 else march - 9
  { year := year + 400 * cycle + (if month ≤ 2 then 1 else 0), month, day }

/-- The fraction of a second, in thousandths, millionths or billionths as needed. -/
def fractionText (nanos : Nat) : String :=
  if nanos = 0 then ""
  else if nanos % 1000000 = 0 then "." ++ zeroPadded 3 (nanos / 1000000)
  else if nanos % 1000 = 0 then "." ++ zeroPadded 6 (nanos / 1000)
  else "." ++ zeroPadded 9 nanos

/-- An instant as date, time and the offset of universal time. -/
def instantText (nanos : Nat) : String :=
  let seconds := nanos / 1000000000
  let date := Date.ofDays (seconds / 86400)
  let clock := seconds % 86400
  zeroPadded 4 date.year ++ "-" ++ zeroPadded 2 date.month ++ "-" ++ zeroPadded 2 date.day ++ "T" ++
    zeroPadded 2 (clock / 3600) ++ ":" ++ zeroPadded 2 (clock / 60 % 60) ++ ":" ++
    zeroPadded 2 (clock % 60) ++ fractionText (nanos % 1000000000) ++ "+00:00"

example : Date.ofDays 0 = ⟨1970, 1, 1⟩ := by decide

example : Date.ofDays 11016 = ⟨2000, 2, 29⟩ := by decide

end Spillway.Text
