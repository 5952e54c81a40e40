/-!
# Dates

A date is a count of milliseconds since the start of 1970, universal time.
Its text is the civil date and time of the proleptic Gregorian calendar; the
hour is not padded and the fraction of a second has no trailing zeros but at
least one digit. Years of more than four digits have no such text, and the
count itself is written.
-/

namespace DocStore

structure CivilDate where
  year : Int
  month : Nat
  day : Nat
  deriving DecidableEq, Repr

/-- Day `0` is the first of January 1970. Years are counted from the first of
March, so that a leap day is the last day of its year, in cycles of 400 years,
which are 146097 days. -/
def CivilDate.ofDay (day : Int) : CivilDate :=
  let shifted := day + 719468
  let cycle := shifted / 146097
  let dayOfCycle := (shifted % 146097).toNat
  let yearOfCycle :=
    (dayOfCycle - dayOfCycle / 1460 + dayOfCycle / 36524 - dayOfCycle / 146096) / 365
  let dayOfYear := dayOfCycle - (365 * yearOfCycle + yearOfCycle / 4 - yearOfCycle / 100)
  let monthFromMarch := (5 * dayOfYear + 2) / 153
  let month := if monthFromMarch < 10 then monthFromMarch + 3 else monthFromMarch - 9
  { year := yearOfCycle + cycle * 400 + (if month ≤ 2 then 1 else 0)
    month
    day := dayOfYear - (153 * monthFromMarch + 2) / 5 + 1 }

/-- Decimal digits, filled up with zeros on the left. -/
def padLeft (width n : Nat) : String :=
  let digits := toString n
  String.ofList (List.replicate (width - digits.length) '0') ++ digits

def yearText (year : Int) : String :=
  (if year < 0 then "-" else "") ++ padLeft 4 year.natAbs

/-- Thousandths of a second without trailing zeros. -/
def fractionText (millis : Nat) : String :=
  if millis % 100 = 0 then toString (millis / 100)
  else if millis % 10 = 0 then padLeft 2 (millis / 10)
  else padLeft 3 millis

def dateText (millis : Int) : String :=
  let date := CivilDate.ofDay (millis / 86400000)
  if 9999 < date.year.natAbs then toString millis
  else
    let time := (millis % 86400000).toNat
    yearText date.year ++ "-" ++ padLeft 2 date.month ++ "-" ++ padLeft 2 date.day
      ++ " " ++ toString (time / 3600000) ++ ":" ++ padLeft 2 (time / 60000 % 60)
      ++ ":" ++ padLeft 2 (time / 1000 % 60) ++ "." ++ fractionText (time % 1000)
      ++ " +00:00:00"

end DocStore
