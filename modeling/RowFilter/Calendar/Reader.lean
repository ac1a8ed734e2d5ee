import RowFilter.Calendar.Text
import RowFilter.Text.Blank

/-! Numbers may have blanks before them, and blanks may stand before each mark between them. A year
without a sign has at most four digits, one with a sign any number; everything else has at most two.
-/

namespace RowFilter.Calendar

/-- A number of at most `most` digits, and what follows it. -/
def scanNumber (most : Nat) (cs : List Char) : Option (Nat × List Char) :=
  match (Text.leadingDigits cs).take most with
  | [] => none
  | ds => some (Text.naturalOf ds, cs.drop ds.length)

/-- A number of one or two digits after any blanks. -/
def scanPart (cs : List Char) : Option (Nat × List Char) := scanNumber 2 (Text.skipBlanks cs)

def scanYear (cs : List Char) : Option (Int × List Char) :=
  match Text.skipBlanks cs with
  | '-' :: cs => (scanNumber cs.length cs).map fun r => (-(r.1 : Int), r.2)
  | '+' :: cs => (scanNumber cs.length cs).map fun r => ((r.1 : Int), r.2)
  | cs => (scanNumber 4 cs).map fun r => ((r.1 : Int), r.2)

def scanMark (c : Char) (cs : List Char) : Option (List Char) :=
  match Text.skipBlanks cs with
  | d :: rest => if d = c then some rest else none
  | [] => none

def scanDate (cs : List Char) : Option (Date × List Char) := do
  let (year, cs) ← scanYear cs
  let cs ← scanMark '-' cs
  let (month, cs) ← scanPart cs
  let cs ← scanMark '-' cs
  let (day, cs) ← scanPart cs
  return (← Date.ofYearMonthDay? year month day, cs)

/-- Nanoseconds: nine digits after the point count, further ones are passed over. -/
def scanFraction : List Char → Option (Nat × List Char)
  | '.' :: cs =>
    match (Text.leadingDigits cs).take 9 with
    | [] => none
    | ds => some (Text.naturalOf ds * Nat.pow 10 (9 - ds.length), Text.afterDigits cs)
  | cs => some (0, cs)

/-- The seconds since the day began and the nanoseconds; second sixty is a leap second. -/
def scanClock (cs : List Char) : Option ((Nat × Nat) × List Char) := do
  let (hour, cs) ← scanPart cs
  let cs ← scanMark ':' cs
  let (minute, cs) ← scanPart cs
  let cs ← scanMark ':' cs
  let (second, cs) ← scanPart cs
  let (nanos, cs) ← scanFraction cs
  if hour ≤ 23 ∧ minute ≤ 59 ∧ second ≤ 60 then
    return ((hour * 3600 + minute * 60 + min second 59,
      if second = 60 then nanosPerSecond + nanos else nanos), cs)
  else none

def scanPair (cs : List Char) : Option (Nat × List Char) :=
  match cs with
  | a :: b :: rest =>
    if a.isDigit && b.isDigit then some (Text.naturalOf [a, b], rest) else none
  | _ => none

/-- Hours and minutes, with colons and blanks between them passed over. -/
def scanOffset (cs : List Char) : Option (Nat × List Char) := do
  let (hours, cs) ← scanPair cs
  let (minutes, cs) ← scanPair (cs.dropWhile fun c => c == ':' || Text.isBlank c)
  if minutes ≤ 59 ∧ hours ≤ 23 then return (hours * 3600 + minutes * 60, cs) else none

/-- The seconds that local time is ahead: none for `Z` and `UTC`, else a sign and an offset. -/
def scanZone (cs : List Char) : Option (Int × List Char) :=
  if (cs.take 3).map Char.toUpper = ['U', 'T', 'C'] then some (0, cs.drop 3) else
    match cs with
    | 'Z' :: cs => some (0, cs)
    | 'z' :: cs => some (0, cs)
    | '+' :: cs => (scanOffset cs).map fun r => ((r.1 : Int), r.2)
    | '-' :: cs => (scanOffset cs).map fun r => (-(r.1 : Int), r.2)
    | '\u2212' :: cs => (scanOffset cs).map fun r => (-(r.1 : Int), r.2)
    | _ => none

def scanSeparator : List Char → Option (List Char)
  | c :: cs => if c = 'T' ∨ c = 't' ∨ c = ' ' then some cs else none
  | [] => none

end RowFilter.Calendar

namespace RowFilter

open Calendar

def Date.parse? (s : String) : Option Date := do
  let (d, cs) ← scanDate s.toList
  if Text.skipBlanks cs = [] then some d else none

def Timestamp.parse? (s : String) : Option Timestamp := do
  let (d, cs) ← scanDate s.toList
  let cs ← scanSeparator cs
  let ((second, nanos), cs) ← scanClock cs
  let (ahead, cs) ← scanZone (Text.skipBlanks cs)
  if Text.skipBlanks cs = [] then
    Timestamp.ofSeconds? (d.dayNumber * secondsPerDay + second - ahead) nanos
  else none

example : (Date.parse? " +02020- 2 -29 ").map Date.text = some "2020-02-29" := by decide +kernel
example : (Timestamp.parse? "2016-12-31t23:59:60.5+00:30").map Timestamp.text =
    some "2016-12-31 23:29:60.500 UTC" := by decide +kernel

end RowFilter
