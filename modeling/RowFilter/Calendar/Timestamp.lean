import RowFilter.Calendar.Date

/-! Instants of universal time to the nanosecond. A leap second is told by its nanoseconds, which go
on past the first thousand million; only the last second of a minute should be one. -/

namespace RowFilter

namespace Calendar

def secondsPerDay : Int := 86400

def nanosPerSecond : Nat := 1000000000

def leastSecond : Int := (daysBefore leastYear - epoch) * secondsPerDay

def lastSecond : Int := (daysBefore (lastYear + 1) - epoch) * secondsPerDay - 1

end Calendar

open Calendar in
/-- Seconds since 1970 began, and nanoseconds after them. -/
structure Timestamp where
  seconds : Int
  nanos : Nat
  in_range : leastSecond ≤ seconds ∧ seconds ≤ lastSecond
  nanos_lt : nanos < 2 * nanosPerSecond
  deriving DecidableEq, Repr

namespace Timestamp

open Calendar

/-- A leap second is the last of its minute. Arithmetic on instants may break this: the nanoseconds
can be replaced at any second. -/
def Settled (t : Timestamp) : Prop := nanosPerSecond ≤ t.nanos → t.seconds % 60 = 59

instance : DecidablePred Settled := fun t =>
  inferInstanceAs (Decidable (nanosPerSecond ≤ t.nanos → t.seconds % 60 = 59))

/-- The settled instant that so many seconds and nanoseconds denote. -/
def ofSeconds? (seconds : Int) (nanos : Nat) : Option Timestamp :=
  if h : (leastSecond ≤ seconds ∧ seconds ≤ lastSecond) ∧ nanos < 2 * nanosPerSecond then
    let t : Timestamp := ⟨seconds, nanos, h.1, h.2⟩
    if t.Settled then some t else none
  else none

theorem ofSeconds?_of_settled {t : Timestamp} (settled : t.Settled) :
    ofSeconds? t.seconds t.nanos = some t := by
  rw [ofSeconds?, dif_pos ⟨t.in_range, t.nanos_lt⟩]
  exact if_pos settled

def dayNumber (t : Timestamp) : Int := t.seconds / secondsPerDay

/-- The seconds since that day began. -/
def secondOfDay (t : Timestamp) : Nat := (t.seconds % secondsPerDay).toNat

end Timestamp

end RowFilter
