import RowFilter.Calendar.Timestamp
import RowFilter.Text.Decimal

/-! Years from 0 to 9999 have four digits; others have a sign and at least four. A fraction of a
second has three, six or nine digits, the fewest that are exact. A leap second is written as the
second after it, the last of a minute as second sixty. -/

namespace RowFilter

namespace Calendar

def yearText (year : Int) : List Char :=
  if 0 ≤ year ∧ year ≤ 9999 then Text.padded 4 year.natAbs
  else (if year < 0 then '-' else '+') :: Text.padded 4 year.natAbs

def dateText (year : Int) (month day : Nat) : List Char :=
  yearText year ++ '-' :: Text.padded 2 month ++ '-' :: Text.padded 2 day

/-- The digits after the seconds, if the second is not a whole one. -/
def fractionText (nanos : Nat) : List Char :=
  if nanos = 0 then []
  else if nanos % 1000000 = 0 then '.' :: Text.padded 3 (nanos / 1000000)
  else if nanos % 1000 = 0 then '.' :: Text.padded 6 (nanos / 1000)
  else '.' :: Text.padded 9 nanos

def clockText (secondOfDay nanos : Nat) : List Char :=
  let leap := nanosPerSecond ≤ nanos
  Text.padded 2 (secondOfDay / 3600) ++ ':' :: Text.padded 2 (secondOfDay / 60 % 60) ++
    ':' :: Text.padded 2 (secondOfDay % 60 + if leap then 1 else 0) ++
    fractionText (if leap then nanos - nanosPerSecond else nanos)

end Calendar

open Calendar

def Date.text (d : Date) : String := String.ofList (dateText d.year d.month d.day)

namespace Timestamp

def dayText (t : Timestamp) : List Char :=
  let n := t.dayNumber + epoch
  let year := yearOf n
  let (month, day) := monthAndDay (monthLengths year) (n - daysBefore year).toNat
  dateText year (month + 1) (day + 1)

def timeText (t : Timestamp) : List Char := clockText t.secondOfDay t.nanos

/-- The text shown to a person. -/
def text (t : Timestamp) : String :=
  String.ofList (t.dayText ++ ' ' :: t.timeText ++ " UTC".toList)

/-- The text of the internet date and time format. -/
def rfc3339 (t : Timestamp) : String :=
  String.ofList (t.dayText ++ 'T' :: t.timeText ++ ['Z'])

example : (ofSeconds? (-1) 1500000000).map text = some "1969-12-31 23:59:60.500 UTC" := by
  decide +kernel

end Timestamp

end RowFilter
