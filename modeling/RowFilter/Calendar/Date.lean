namespace RowFilter

namespace Calendar

def isLeap (year : Int) : Bool := year % 4 == 0 && (year % 100 != 0 || year % 400 == 0)

def monthLengths (year : Int) : List Nat :=
  [31, if isLeap year then 29 else 28, 31, 30, 31, 30, 31, 31, 30, 31, 30, 31]

/-- The length of a month, counted from one. -/
def daysIn (year : Int) (month : Nat) : Nat := (monthLengths year).getD (month - 1) 0

def leastYear : Int := -262143

def lastYear : Int := 262142

end Calendar

open Calendar in
/-- A day that exists. -/
structure Date where
  year : Int
  month : Nat
  day : Nat
  in_range : leastYear ≤ year ∧ year ≤ lastYear
  month_exists : 1 ≤ month ∧ month ≤ 12
  day_exists : 1 ≤ day ∧ day ≤ daysIn year month
  deriving DecidableEq, Repr

namespace Calendar

/-- The days from 0001-01-01 to the first day of a year. -/
def daysBefore (year : Int) : Int :=
  365 * (year - 1) + (year - 1) / 4 - (year - 1) / 100 + (year - 1) / 400

/-- The days from 0001-01-01 to 1970-01-01. -/
def epoch : Int := 719162

/-- The year that holds the day with the given number of days since 0001-01-01. -/
def yearOf (n : Int) : Int :=
  let y := n * 400 / 146097 + 1
  if n < daysBefore y then y - 1 else if daysBefore (y + 1) ≤ n then y + 1 else y

/-- The days of the first `n` months, given the lengths of the months. -/
def daysBeforeMonth : List Nat → Nat → Nat
  | l :: ls, n + 1 => l + daysBeforeMonth ls n
  | _, _ => 0

/-- The month and the day of it, both counted from zero, after `n` days of months of the given
lengths. -/
def monthAndDay : List Nat → Nat → Nat × Nat
  | [], n => (0, n)
  | l :: ls, n => if n < l then (0, n) else ((monthAndDay ls (n - l)).1 + 1, (monthAndDay ls (n - l)).2)

end Calendar

namespace Date

open Calendar

def ofYearMonthDay? (year : Int) (month day : Nat) : Option Date :=
  if h : (leastYear ≤ year ∧ year ≤ lastYear) ∧ (1 ≤ month ∧ month ≤ 12) ∧
      (1 ≤ day ∧ day ≤ daysIn year month)
  then some ⟨year, month, day, h.1, h.2.1, h.2.2⟩ else none

/-- The days since 1970-01-01. -/
def dayNumber (d : Date) : Int :=
  daysBefore d.year + daysBeforeMonth (monthLengths d.year) (d.month - 1) + (d.day - 1 : Nat) - epoch

def ofDayNumber? (n : Int) : Option Date :=
  let year := yearOf (n + epoch)
  let (month, day) := monthAndDay (monthLengths year) (n + epoch - daysBefore year).toNat
  ofYearMonthDay? year (month + 1) (day + 1)

example : (ofYearMonthDay? 2000 2 29).map dayNumber = some 11016 := by decide +kernel
example : ((ofDayNumber? (-719529)).map fun d => (d.year, d.month, d.day)) = some (-1, 12, 31) := by
  decide +kernel

end Date

end RowFilter
