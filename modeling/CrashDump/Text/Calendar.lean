import CrashDump.Text.Hex

/-!
# Dates

Seconds since the beginning of 1970 as a date and time of day in UTC. Years are counted from March
so that the leap day is the last day of its year.
-/
namespace CrashDump.Calendar

structure Date where
  year : Nat
  month : Nat
  day : Nat
  deriving DecidableEq, Repr

/-- The date so many days after the first of January 1970. -/
def dateOfDay (day : Nat) : Date :=
  let fromMarch := day + 719468
  let inEra := fromMarch % 146097
  let yearOfEra := (inEra - inEra / 1460 + inEra / 36524 - inEra / 146096) / 365
  let dayOfYear := inEra - (365 * yearOfEra + yearOfEra / 4 - yearOfEra / 100)
  let monthFromMarch := (5 * dayOfYear + 2) / 153
  let month := if monthFromMarch < 10 then monthFromMarch + 3 else monthFromMarch - 9
  { year := yearOfEra + fromMarch / 146097 * 400 + (if month ≤ 2 then 1 else 0)
    month := month
    day := dayOfYear - (153 * monthFromMarch + 2) / 5 + 1 }

/-- Exactly `width` decimal digits. -/
def padded : Nat → Nat → String
  | 0, _ => ""
  | width + 1, n => padded width (n / 10) ++ toString (n % 10)

/-- Date, time of day and offset zero, as in `2020-09-13T12:26:40+00:00`. -/
def text (seconds : Nat) : String :=
  let date := dateOfDay (seconds / 86400)
  let second := seconds % 86400
  padded 4 date.year ++ "-" ++ padded 2 date.month ++ "-" ++ padded 2 date.day ++ "T" ++
    padded 2 (second / 3600) ++ ":" ++ padded 2 (second / 60 % 60) ++ ":" ++
    padded 2 (second % 60) ++ "+00:00"

end CrashDump.Calendar
