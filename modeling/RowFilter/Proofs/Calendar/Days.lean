import Mathlib.Algebra.GroupWithZero.Nat
import RowFilter.Calendar.Text

namespace RowFilter

namespace Calendar

/-! ## Years -/

theorem daysBefore_succ (year : Int) :
    daysBefore (year + 1) = daysBefore year + (monthLengths year).sum := by
  have length : ((monthLengths year).sum : Int) = if isLeap year then 366 else 365 := by
    cases leap : isLeap year <;> simp [monthLengths, leap]
  rw [length]
  cases leap : isLeap year <;>
  · simp [isLeap, daysBefore] at leap ⊢
    omega

theorem daysBefore_mono {year later : Int} (le : year ≤ later) :
    daysBefore year ≤ daysBefore later := by
  unfold daysBefore
  omega

/-- **A day belongs to the year found for it.** -/
theorem yearOf_spec (n : Int) : daysBefore (yearOf n) ≤ n ∧ n < daysBefore (yearOf n + 1) := by
  -- by the mean length of a year the guess misses by one year at most
  have near : daysBefore (n * 400 / 146097) ≤ n ∧
      n < daysBefore (n * 400 / 146097 + 1 + 1 + 1) := by
    unfold daysBefore
    omega
  simp only [yearOf]
  split
  · next early =>
    rw [Int.add_sub_cancel]
    exact ⟨near.1, early⟩
  · next started =>
    split
    · next late => exact ⟨late, near.2⟩
    · next within => exact ⟨Int.not_lt.1 started, Int.not_le.1 within⟩

/-! ## Months -/

theorem monthAndDay_spec {lengths : List Nat} {n : Nat} (inside : n < lengths.sum) :
    (monthAndDay lengths n).1 < lengths.length ∧
      (monthAndDay lengths n).2 < lengths.getD (monthAndDay lengths n).1 0 ∧
      daysBeforeMonth lengths (monthAndDay lengths n).1 + (monthAndDay lengths n).2 = n := by
  induction lengths generalizing n with
  | nil => simp at inside
  | cons length lengths ih =>
    rw [List.sum_cons] at inside
    rw [monthAndDay]
    split
    · next first => exact ⟨Nat.succ_pos _, first, by simp [daysBeforeMonth]⟩
    · next later =>
      obtain ⟨month, day, number⟩ := ih (n := n - length) (by omega)
      refine ⟨Nat.succ_lt_succ month, by simpa using day, ?_⟩
      simp only [daysBeforeMonth]
      omega

theorem daysIn_le (year : Int) (month : Nat) : daysIn year month ≤ 31 := by
  have all : ∀ length ∈ monthLengths year, length ≤ 31 := by
    cases leap : isLeap year <;> simp [monthLengths, leap]
  rw [daysIn, List.getD_eq_getElem?_getD]
  cases found : (monthLengths year)[month - 1]? with
  | none => exact Nat.zero_le 31
  | some length => exact all length (List.mem_of_getElem? found)

end Calendar

open Calendar

/-- **A day of the supported years has a date**, whose number is that of the day. -/
theorem Date.exists_of_day {n : Int} (first : daysBefore leastYear ≤ n)
    (last : n < daysBefore (lastYear + 1)) :
    let part := monthAndDay (monthLengths (yearOf n)) (n - daysBefore (yearOf n)).toNat
    ∃ d : Date, d.dayNumber = n - epoch ∧
      d.year = yearOf n ∧ d.month = part.1 + 1 ∧ d.day = part.2 + 1 := by
  intro part
  obtain ⟨begun, ended⟩ := yearOf_spec n
  have earliest : leastYear ≤ yearOf n := by
    refine Int.not_lt.1 fun earlier => ?_
    have := daysBefore_mono (Int.add_one_le_of_lt earlier)
    omega
  have latest : yearOf n ≤ lastYear := by
    refine Int.not_lt.1 fun later => ?_
    have := daysBefore_mono (Int.add_one_le_of_lt later)
    omega
  have inside : (n - daysBefore (yearOf n)).toNat < (monthLengths (yearOf n)).sum := by
    have := daysBefore_succ (yearOf n)
    omega
  obtain ⟨month, day, number⟩ := monthAndDay_spec inside
  let d : Date := ⟨yearOf n, part.1 + 1, part.2 + 1, ⟨earliest, latest⟩, ⟨Nat.succ_pos _, month⟩,
    ⟨Nat.succ_pos _, day⟩⟩
  have same : d.dayNumber = n - epoch := by
    simp only [d, part, dayNumber, Nat.add_sub_cancel]
    omega
  exact ⟨d, same, rfl, rfl, rfl⟩

/-- **The day of a timestamp is written as its date.** -/
theorem Timestamp.exists_date (t : Timestamp) :
    ∃ d : Date, d.dayNumber = t.dayNumber ∧ t.dayText = dateText d.year d.month d.day := by
  obtain ⟨first, last⟩ := t.in_range
  have day : leastSecond / secondsPerDay ≤ t.dayNumber ∧ t.dayNumber ≤ lastSecond / secondsPerDay :=
    ⟨Int.ediv_le_ediv (by decide) first, Int.ediv_le_ediv (by decide) last⟩
  have least : leastSecond / secondsPerDay = daysBefore leastYear - epoch := by decide
  have most : lastSecond / secondsPerDay = daysBefore (lastYear + 1) - epoch - 1 := by decide
  obtain ⟨d, number, year, month, day⟩ :=
    Date.exists_of_day (n := t.dayNumber + epoch) (by omega) (by omega)
  refine ⟨d, by omega, ?_⟩
  rw [year, month, day]
  rfl

end RowFilter
