import RowFilter.Calendar.Reader
import RowFilter.Proofs.Calendar.Days
import RowFilter.Proofs.Text.Digits

/-!
# Dates and times read back

A date is read back from its text, whatever its year, and so is a timestamp: the
sign of a year, the width of a fraction and a leap second are all told from the
text. A leap second anywhere but at the end of a minute is written as the second
after it, and read as that.

* `Calendar.scanDate_dateText`: a date in front of other text;
* `Calendar.scanFraction_fractionText`, `Calendar.scanClock_clockText`: a time of
  the day;
* `Timestamp.settle`: what a timestamp is read back as;
* `Date.parse?_text`, `Timestamp.parse?_rfc3339`: whole texts.
-/

namespace RowFilter

namespace Calendar

open Text (padded naturalOf)

/-- A text that does not carry digits in front of it on. -/
def EndsDigits (cs : List Char) : Prop := ∀ c ∈ cs.head?, c.isDigit = false

theorem endsDigits_nil : EndsDigits [] := nofun

theorem endsDigits_cons {c : Char} (other : c.isDigit = false) (cs : List Char) :
    EndsDigits (c :: cs) := by
  intro d mem
  obtain rfl : c = d := by simpa using mem
  exact other

theorem isBlank_of_isDigit {c : Char} (digit : c.isDigit = true) : Text.isBlank c = false := by
  have code : 48 ≤ c.toNat ∧ c.toNat ≤ 57 := Char.isDigit_iff_toNat.1 digit
  simp only [Text.isBlank, Text.blankRanges, List.any_cons, List.any_nil, Bool.or_false,
    Bool.or_eq_false_iff, Bool.and_eq_false_iff, decide_eq_false_iff_not]
  omega

theorem skipBlanks_padded (w n : Nat) (rest : List Char) :
    Text.skipBlanks (padded w n ++ rest) = padded w n ++ rest := by
  obtain ⟨d, ds, written, digit⟩ := Text.padded_eq_cons w n
  rw [written, List.cons_append, Text.skipBlanks, List.dropWhile_cons, isBlank_of_isDigit digit]
  rfl

theorem scanYear_minus (cs : List Char) :
    scanYear ('-' :: cs) = (scanNumber cs.length cs).map fun r => (-(r.1 : Int), r.2) := rfl

theorem scanYear_plus (cs : List Char) :
    scanYear ('+' :: cs) = (scanNumber cs.length cs).map fun r => ((r.1 : Int), r.2) := rfl

theorem scanYear_unsigned (w n : Nat) (rest : List Char) :
    scanYear (padded w n ++ rest) =
      (scanNumber 4 (padded w n ++ rest)).map fun r => ((r.1 : Int), r.2) := by
  obtain ⟨d, ds, written, digit⟩ := Text.padded_eq_cons w n
  rw [scanYear, skipBlanks_padded, written, List.cons_append]
  split
  · next minus =>
    cases minus
    cases digit
  · next plus =>
    cases plus
    cases digit
  · rfl

section
variable {rest : List Char} (ends : EndsDigits rest)
include ends

theorem scanNumber_append {most : Nat} {ds : List Char} (digits : ∀ c ∈ ds, c.isDigit = true)
    (nonempty : ds ≠ []) (fits : ds.length ≤ most) :
    scanNumber most (ds ++ rest) = some (naturalOf ds, rest) := by
  have front : Text.leadingDigits (ds ++ rest) = ds := (Text.span_append digits ends).1
  rw [scanNumber, front, List.take_of_length_le fits]
  cases ds with
  | nil => exact absurd rfl nonempty
  | cons d ds => simp only [List.drop_left]

theorem scanNumber_padded {most w n : Nat} (fits : (padded w n).length ≤ most) :
    scanNumber most (padded w n ++ rest) = some (n, rest) := by
  rw [scanNumber_append ends (fun _ => Text.isDigit_of_mem_padded) (Text.padded_ne_nil w n) fits,
    Text.naturalOf_padded]

theorem scanPart_padded {n : Nat} (fits : n < 100) :
    scanPart (padded 2 n ++ rest) = some (n, rest) := by
  have width : (padded 2 n).length = 2 := Text.length_padded (by decide) fits
  rw [scanPart, skipBlanks_padded, scanNumber_padded ends (Nat.le_of_eq width)]

/-- **A year is read back**, with a sign or without. -/
theorem scanYear_yearText (year : Int) : scanYear (yearText year ++ rest) = some (year, rest) := by
  have signed : scanNumber (padded 4 year.natAbs ++ rest).length (padded 4 year.natAbs ++ rest) =
      some (year.natAbs, rest) := scanNumber_padded ends (by simp)
  unfold yearText
  by_cases usual : 0 ≤ year ∧ year ≤ 9999
  · have width : (padded 4 year.natAbs).length = 4 :=
      Text.length_padded (by decide) (show year.natAbs < 10000 by omega)
    rw [if_pos usual, scanYear_unsigned, scanNumber_padded ends (Nat.le_of_eq width),
      Option.map_some, Int.natAbs_of_nonneg usual.1]
  · rw [if_neg usual, List.cons_append]
    by_cases before : year < 0
    · rw [if_pos before, scanYear_minus, signed, Option.map_some,
        Int.ofNat_natAbs_of_nonpos (Int.le_of_lt before), Int.neg_neg]
    · rw [if_neg before, scanYear_plus, signed, Option.map_some,
        Int.natAbs_of_nonneg (Int.not_lt.1 before)]

end

theorem scanMark_cons {c : Char} (solid : Text.isBlank c = false) (cs : List Char) :
    scanMark c (c :: cs) = some cs := by
  simp [scanMark, Text.skipBlanks, solid]

theorem ofYearMonthDay?_eq (d : Date) : Date.ofYearMonthDay? d.year d.month d.day = some d :=
  dif_pos ⟨d.in_range, d.month_exists, d.day_exists⟩

/-- **A date is read back**, with anything behind it but a digit. -/
theorem scanDate_dateText (d : Date) {rest : List Char} (ends : EndsDigits rest) :
    scanDate (dateText d.year d.month d.day ++ rest) = some (d, rest) := by
  have month : d.month < 100 := Nat.lt_of_le_of_lt d.month_exists.2 (by decide)
  have day : d.day < 100 :=
    Nat.lt_of_le_of_lt (Nat.le_trans d.day_exists.2 (daysIn_le _ _)) (by decide)
  have hyphen (cs : List Char) : EndsDigits ('-' :: cs) := endsDigits_cons rfl cs
  simp only [dateText, List.append_assoc, List.cons_append, scanDate,
    scanYear_yearText (hyphen _), scanMark_cons (c := '-') (by decide),
    scanPart_padded (hyphen _) month, scanPart_padded ends day, ofYearMonthDay?_eq,
    bind, Option.bind, pure]

section
variable {rest : List Char} (ends : EndsDigits rest)
include ends

theorem scanFraction_padded {w n : Nat} (some_digits : 0 < w) (most : w ≤ 9)
    (fits : n < Nat.pow 10 w) :
    scanFraction ('.' :: (padded w n ++ rest)) = some (n * Nat.pow 10 (9 - w), rest) := by
  have width : (padded w n).length = w := Text.length_padded some_digits fits
  have digits : ∀ c ∈ padded w n, c.isDigit = true := fun _ => Text.isDigit_of_mem_padded
  obtain ⟨front, behind⟩ := Text.span_append digits ends
  rw [scanFraction, Text.leadingDigits, front, Text.afterDigits, behind,
    List.take_of_length_le (by omega)]
  split
  · next none => exact absurd none (Text.padded_ne_nil w n)
  · rw [Text.naturalOf_padded, width]

/-- Digits that leave nothing over denote the nanoseconds. -/
theorem scanFraction_exact {w unit nanos : Nat} (some_digits : 0 < w) (most : w ≤ 9)
    (fits : nanos / unit < Nat.pow 10 w) (is_unit : Nat.pow 10 (9 - w) = unit)
    (exact : nanos % unit = 0) :
    scanFraction ('.' :: padded w (nanos / unit) ++ rest) = some (nanos, rest) := by
  rw [List.cons_append, scanFraction_padded ends some_digits most fits, is_unit,
    Nat.div_mul_cancel (Nat.dvd_of_mod_eq_zero exact)]

/-- **A fraction of a second is read back**, whichever number of digits it has. -/
theorem scanFraction_fractionText {nanos : Nat} (fits : nanos < nanosPerSecond)
    (other : ∀ c ∈ rest.head?, c ≠ '.') :
    scanFraction (fractionText nanos ++ rest) = some (nanos, rest) := by
  have fits : nanos < 1000000000 := fits
  have millis : nanos / 1000000 < Nat.pow 10 3 := show _ < 1000 by omega
  have micros : nanos / 1000 < Nat.pow 10 6 := show _ < 1000000 by omega
  have single : nanos / 1 < Nat.pow 10 9 := show _ < 1000000000 by omega
  unfold fractionText
  split
  · next whole =>
    rw [whole, List.nil_append]
    unfold scanFraction
    split
    · exact absurd rfl (other '.' rfl)
    · rfl
  · split
    · next exact =>
      exact scanFraction_exact ends (by decide) (by decide) millis rfl exact
    · split
      · next exact =>
        exact scanFraction_exact ends (by decide) (by decide) micros rfl exact
      · have read := scanFraction_exact ends (by decide) (by decide) single rfl (Nat.mod_one nanos)
        rwa [Nat.div_one] at read

end

theorem endsDigits_fractionText {nanos : Nat} {rest : List Char} (ends : EndsDigits rest) :
    EndsDigits (fractionText nanos ++ rest) := by
  unfold fractionText
  split
  · exact ends
  · split
    · exact endsDigits_cons rfl _
    · split <;> exact endsDigits_cons rfl _

section
variable {rest : List Char} (ends : EndsDigits rest) (other : ∀ c ∈ rest.head?, c ≠ '.')
include ends other

/-- The parts of a time are told apart by the colons between them. -/
theorem scanClock_parts {hour minute second nanos : Nat} (hours : hour ≤ 23) (minutes : minute ≤ 59)
    (seconds : second ≤ 60) (fits : nanos < nanosPerSecond) :
    scanClock (padded 2 hour ++ ':' :: padded 2 minute ++ ':' :: padded 2 second ++
        fractionText nanos ++ rest) =
      some ((hour * 3600 + minute * 60 + min second 59,
        if second = 60 then nanosPerSecond + nanos else nanos), rest) := by
  have colon (cs : List Char) : EndsDigits (':' :: cs) := endsDigits_cons rfl cs
  have last : EndsDigits (fractionText nanos ++ rest) := endsDigits_fractionText ends
  simp only [List.append_assoc, List.cons_append, scanClock, scanMark_cons (c := ':') (by decide),
    scanPart_padded (colon _) (Nat.lt_of_le_of_lt hours (by decide : 23 < 100)),
    scanPart_padded (colon _) (Nat.lt_of_le_of_lt minutes (by decide : 59 < 100)),
    scanPart_padded last (Nat.lt_of_le_of_lt seconds (by decide : 60 < 100)),
    scanFraction_fractionText ends fits other, bind, Option.bind, pure]
  rw [if_pos ⟨hours, minutes, seconds⟩]

/-- **A time of the day is read back**, and a leap second before the last of a minute as the second
after it. -/
theorem scanClock_clockText {second nanos : Nat} (inside : second < 86400)
    (short : nanos < 2 * nanosPerSecond) :
    scanClock (clockText second nanos ++ rest) =
      some (if nanosPerSecond ≤ nanos → second % 60 = 59 then (second, nanos)
        else (second + 1, nanos - nanosPerSecond), rest) := by
  have hours : second / 3600 ≤ 23 := by omega
  have minutes : second / 60 % 60 ≤ 59 := by omega
  have whole : second / 3600 * 3600 + second / 60 % 60 * 60 + second % 60 = second := by omega
  simp only [clockText]
  by_cases more : nanosPerSecond ≤ nanos
  · have fits : nanos - nanosPerSecond < nanosPerSecond := by omega
    rw [if_pos more, if_pos more,
      scanClock_parts ends other hours minutes (by omega : second % 60 + 1 ≤ 60) fits]
    by_cases last : second % 60 = 59
    · have settled : nanosPerSecond ≤ nanos → second % 60 = 59 := fun _ => last
      rw [last] at whole
      rw [if_pos settled, last, if_pos rfl, Nat.min_eq_right (by decide), whole,
        Nat.add_sub_cancel' more]
    · have unsettled : ¬(nanosPerSecond ≤ nanos → second % 60 = 59) := fun settled =>
        last (settled more)
      have within : second % 60 + 1 ≠ 60 ∧ second % 60 + 1 ≤ 59 := by omega
      rw [if_neg unsettled, if_neg within.1, Nat.min_eq_left within.2, ← Nat.add_assoc, whole]
  · have settled : nanosPerSecond ≤ nanos → second % 60 = 59 := fun most => absurd most more
    have seconds : second % 60 ≤ 59 := by omega
    rw [if_pos settled, if_neg more, if_neg more, Nat.add_zero,
      scanClock_parts ends other hours minutes (Nat.le_succ_of_le seconds) (Nat.not_le.1 more),
      if_neg (by omega), Nat.min_eq_left seconds, whole]

end

end Calendar

open Calendar

/-- **Every date is read back from its text.** -/
theorem Date.parse?_text (d : Date) : parse? d.text = some d := by
  have read := scanDate_dateText d endsDigits_nil
  rw [List.append_nil] at read
  simp only [parse?, text, String.toList_ofList, read, bind, Option.bind]
  rfl

namespace Timestamp

/-- The instant with a leap second nowhere but at the end of a minute: elsewhere the next second has
begun. -/
def settle (t : Timestamp) : Timestamp :=
  if settled : t.Settled then t
  else
    have unsettled : nanosPerSecond ≤ t.nanos ∧ t.seconds % 60 ≠ 59 := Classical.not_imp.1 settled
    have in_range := t.in_range
    have most : lastSecond % 60 = 59 := by decide
    ⟨t.seconds + 1, t.nanos - nanosPerSecond, by omega,
      Nat.lt_of_le_of_lt (Nat.sub_le ..) t.nanos_lt⟩

theorem settle_of_settled {t : Timestamp} (settled : t.Settled) : t.settle = t := dif_pos settled

theorem settled_settle (t : Timestamp) : t.settle.Settled := by
  unfold settle
  split
  · next settled => exact settled
  · have short := t.nanos_lt
    intro more
    dsimp only at more
    omega

theorem settle_eq_self_iff {t : Timestamp} : t.settle = t ↔ t.Settled :=
  ⟨fun same => same ▸ t.settled_settle, settle_of_settled⟩

theorem seconds_settle (t : Timestamp) :
    t.settle.seconds = if t.Settled then t.seconds else t.seconds + 1 := by
  unfold settle
  split <;> rfl

theorem nanos_settle (t : Timestamp) :
    t.settle.nanos = if t.Settled then t.nanos else t.nanos - nanosPerSecond := by
  unfold settle
  split <;> rfl

/-- Whether an instant is settled shows in the time of the day. -/
theorem settled_iff_secondOfDay (t : Timestamp) :
    t.Settled ↔ (nanosPerSecond ≤ t.nanos → t.secondOfDay % 60 = 59) := by
  have same : t.secondOfDay % 60 = 59 ↔ t.seconds % 60 = 59 := by
    simp only [secondOfDay, secondsPerDay]
    omega
  rw [same]
  rfl

/-- The time of the day is read as that of the settled instant, on the same day. -/
theorem scanClock_timeText (t : Timestamp) :
    ∃ second : Nat, scanClock (t.timeText ++ ['Z']) = some ((second, t.settle.nanos), ['Z']) ∧
      t.dayNumber * secondsPerDay + second = t.settle.seconds := by
  have inside : t.secondOfDay < 86400 := by
    simp only [secondOfDay, secondsPerDay]
    omega
  have instant : t.dayNumber * secondsPerDay + t.secondOfDay = t.seconds := by
    simp only [dayNumber, secondOfDay, secondsPerDay]
    omega
  have read := scanClock_clockText (endsDigits_cons (c := 'Z') rfl []) (by simp) inside t.nanos_lt
  simp only [← t.settled_iff_secondOfDay] at read
  rw [timeText, read, seconds_settle, nanos_settle]
  by_cases settled : t.Settled
  · rw [if_pos settled, if_pos settled, if_pos settled]
    exact ⟨t.secondOfDay, rfl, instant⟩
  · rw [if_neg settled, if_neg settled, if_neg settled]
    exact ⟨t.secondOfDay + 1, rfl, by omega⟩

/-- **Every timestamp is read back from its text**, settled. -/
theorem parse?_rfc3339 (t : Timestamp) : parse? t.rfc3339 = some t.settle := by
  obtain ⟨d, number, day⟩ := t.exists_date
  obtain ⟨second, read_time, instant⟩ := t.scanClock_timeText
  have read_day (cs : List Char) := scanDate_dateText d (endsDigits_cons (c := 'T') rfl cs)
  have separator (cs : List Char) : scanSeparator ('T' :: cs) = some cs := rfl
  have zone : scanZone (Text.skipBlanks ['Z']) = some (0, []) := rfl
  rw [← number] at instant
  simp only [parse?, rfc3339, String.toList_ofList, day, List.append_assoc, List.cons_append,
    read_day, separator, read_time, zone, instant, Int.sub_zero, bind, Option.bind]
  exact ofSeconds?_of_settled t.settled_settle

end Timestamp

end RowFilter
