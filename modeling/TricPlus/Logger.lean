import TricPlus.DataBus
import TricPlus.Lib.Gregorian

/-!
The timestamps of the system log.

The date is computed from the number of days since 1970, without a loop.
-/

namespace TricPlus

open Gregorian (Date yearStart fromMarch dateAfter)

namespace Logger

/-- Year, month and day. -/
def daysToDate (daysSinceEpoch : Nat) : Date :=
  let z := daysSinceEpoch + 719468
  let era := z / 146097
  let dayOfEra := z - era * 146097
  let yearOfEra := (dayOfEra - dayOfEra / 1460 + dayOfEra / 36524 - dayOfEra / 146096) / 365
  let year := yearOfEra + era * 400
  let dayOfYear := dayOfEra - (365 * yearOfEra + yearOfEra / 4 - yearOfEra / 100)
  let month := (5 * dayOfYear + 2) / 153
  let day := dayOfYear - (153 * month + 2) / 5 + 1
  let month := if month < 10 then month + 3 else month - 9
  let year := if month ≤ 2 then year + 1 else year
  ⟨year, month, day⟩

def epoch : Date := ⟨1970, 1, 1⟩

def evened (dayOfEra : Nat) : Nat :=
  dayOfEra - dayOfEra / 1460 + dayOfEra / 36524 - dayOfEra / 146096

private theorem evened_succ (dayOfEra : Nat) : evened dayOfEra ≤ evened (dayOfEra + 1) := by
  unfold evened
  omega

private theorem evened_mono : Monotone evened := monotone_nat_of_le_succ evened_succ

private theorem evened_ends : ∀ year < 400, evened (yearStart year) / 365 = year ∧
    evened (yearStart (year + 1) - 1) / 365 = year := by
  decide +kernel

private theorem yearOfEra_eq {year dayOfEra : Nat} (inEra : year < 400)
    (starts : yearStart year ≤ dayOfEra) (ends : dayOfEra < yearStart (year + 1)) :
    evened dayOfEra / 365 = year := by
  rcases evened_ends year inEra with ⟨first, last⟩
  have fromStart := Nat.div_le_div_right (c := 365) (evened_mono starts)
  have toEnd := Nat.div_le_div_right (c := 365) (evened_mono (Nat.le_sub_one_of_lt ends))
  omega

private theorem yearStart_le_era {year : Nat} (inEra : year < 400) : yearStart
    (year + 1) ≤ 146097 := by
  unfold yearStart
  omega

/-- Month and day are those of the table, and January and February count for the next
year. -/
theorem dated {year dayOfYear : Nat} (inside : dayOfYear < 366) (month day : Nat)
    (isMonth : month = (5 * dayOfYear + 2) / 153)
    (isDay : day = dayOfYear - (153 * month + 2) / 5 + 1) :
    (⟨if (if month < 10 then month + 3 else month - 9) ≤ 2 then year + 1 else year,
      if month < 10 then month + 3 else month - 9, day⟩ : Date) = fromMarch year dayOfYear := by
  unfold fromMarch Gregorian.monthAndDay
  simp only
  rw [← isMonth, ← isDay]
  by_cases early : month < 10
  · rw [if_pos early, if_pos early, if_neg (by omega)]
    rfl
  · rw [if_neg early, if_neg early, if_pos (by omega)]

private theorem daysToDate_fromMarch {days year dayOfYear : Nat}
    (split : days + 719468 = yearStart year + dayOfYear)
    (inside : days + 719468 < yearStart (year + 1)) :
    daysToDate days = fromMarch year dayOfYear := by
  have eras : year = year % 400 + year / 400 * 400 := by omega
  have starts := Gregorian.yearStart_add_era (year % 400) (year / 400)
  have ends := Gregorian.yearStart_add_era (year % 400 + 1) (year / 400)
  have length := Gregorian.yearStart_succ year
  have atMost := Bool.toNat_le (Gregorian.leap (year + 1))
  have inEra : year % 400 < 400 := Nat.mod_lt _ (by decide)
  have nextYear : year % 400 + 1 + year / 400 * 400 = year + 1 := by omega
  rw [← eras] at starts
  rw [nextYear] at ends
  have bounded := yearStart_le_era inEra
  have era : (days + 719468) / 146097 = year / 400 := by omega
  have dayOfEra : days + 719468 - year / 400 * 146097 = yearStart (year % 400) + dayOfYear := by
    omega
  have yearOfEra : evened (yearStart (year % 400) + dayOfYear) / 365 = year % 400 :=
    yearOfEra_eq inEra (Nat.le_add_right _ _) (by omega)
  have rest : yearStart (year % 400) + dayOfYear -
      (365 * (year % 400) + year % 400 / 4 - year % 400 / 100) = dayOfYear := by
    unfold yearStart
    omega
  unfold evened at yearOfEra
  unfold daysToDate
  simp only [era, dayOfEra, yearOfEra, rest, ← eras]
  exact dated (by omega) _ _ rfl rfl

/-- The days since 1970 are turned into the date that so many days lead to. -/
theorem daysToDate_eq_dateAfter (days : Nat) : daysToDate days = dateAfter epoch days := by
  induction days with
  | zero => decide +kernel
  | succ days ih =>
      rcases Gregorian.exists_year (days + 719468) with ⟨year, dayOfYear, split, inside⟩
      unfold dateAfter
      rw [← ih, daysToDate_fromMarch split inside]
      have length := Gregorian.yearStart_succ (year + 1)
      by_cases stays : days + 1 + 719468 < yearStart (year + 1)
      · rw [Gregorian.next_within (by omega)]
        exact daysToDate_fromMarch (by omega) stays
      · rw [Gregorian.next_at_end (by omega)]
        exact daysToDate_fromMarch (by omega) (by omega)

def monthName : Nat → Bytes
  | 1 => asBytes "Jan"
  | 2 => asBytes "Feb"
  | 3 => asBytes "Mar"
  | 4 => asBytes "Apr"
  | 5 => asBytes "May"
  | 6 => asBytes "Jun"
  | 7 => asBytes "Jul"
  | 8 => asBytes "Aug"
  | 9 => asBytes "Sep"
  | 10 => asBytes "Oct"
  | 11 => asBytes "Nov"
  | 12 => asBytes "Dec"
  | _ => asBytes "???"

def padded (fill : UInt8) (number : Nat) : Bytes :=
  let text := asBytes (toString number)
  List.replicate (2 - text.length) fill ++ text

def formatTimestamp (secs : Nat) : Bytes :=
  let days := secs / 86400
  let timeOfDay := secs % 86400
  let hours := timeOfDay / 3600
  let minutes := timeOfDay % 3600 / 60
  let seconds := timeOfDay % 60
  let date := daysToDate days
  monthName date.month ++ asBytes " " ++ padded 0x20 date.day ++ asBytes " " ++
    padded 0x30 hours ++ asBytes ":" ++ padded 0x30 minutes ++ asBytes ":" ++ padded 0x30 seconds

def facilityDaemon : Nat := 3

def syslogLine (severity secs : Nat) (message : Bytes) : Bytes :=
  asBytes "<" ++ asBytes (toString (facilityDaemon * 8 + severity)) ++ asBytes ">" ++
    formatTimestamp secs ++ asBytes " tric-server: " ++ message

private theorem daysToDate_bounds (days : Nat) :
    (1 ≤ (daysToDate days).month ∧ (daysToDate days).month ≤ 12) ∧
      1 ≤ (daysToDate days).day ∧ (daysToDate days).day ≤ 31 := by
  have table : ∀ dayOfYear < 366, (1 ≤ (Gregorian.monthAndDay dayOfYear).2.1 ∧
      (Gregorian.monthAndDay dayOfYear).2.1 ≤ 12) ∧
        1 ≤ (Gregorian.monthAndDay dayOfYear).2.2 ∧
          (Gregorian.monthAndDay dayOfYear).2.2 ≤ 31 := by
    decide +kernel
  rcases Gregorian.exists_year (days + 719468) with ⟨year, dayOfYear, split, inside⟩
  have length := Gregorian.yearStart_succ year
  have atMost := Bool.toNat_le (Gregorian.leap (year + 1))
  rw [daysToDate_fromMarch split inside]
  exact table dayOfYear (by omega)

private theorem length_monthName (month : Nat) : (monthName month).length = 3 := by
  unfold monthName
  split <;> decide +kernel

private theorem length_padded (fill : UInt8) {number : Nat} (short : number < 100) :
    (padded fill number).length = 2 := by
  have digits : ∀ number < 100, (asBytes (toString number)).length ≤ 2 := by
    decide +kernel
  have atMost := digits number short
  unfold padded
  simp only [List.length_append, List.length_replicate]
  omega

theorem length_formatTimestamp (secs : Nat) : (formatTimestamp secs).length = 15 := by
  have day := (daysToDate_bounds (secs / 86400)).2.2
  have blank : (asBytes " ").length = 1 := by decide +kernel
  have between : (asBytes ":").length = 1 := by decide +kernel
  unfold formatTimestamp
  simp only [List.length_append, length_monthName, blank, between,
    length_padded 0x20 (show (daysToDate (secs / 86400)).day < 100 by omega),
    length_padded 0x30 (show secs % 86400 / 3600 < 100 by omega),
    length_padded 0x30 (show secs % 86400 % 3600 / 60 < 100 by omega),
    length_padded 0x30 (show secs % 86400 % 60 < 100 by omega)]

/-- A leap day. -/
example : formatTimestamp 1709251199 = asBytes "Feb 29 23:59:59" := by decide +kernel

end Logger

end TricPlus
