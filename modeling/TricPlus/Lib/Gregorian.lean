import Mathlib

/-!
The Gregorian calendar, a day at a time.

A date is what comes after so many days.  Years that begin in March have the day that is
added in a leap year at their end, so that a day of such a year has the same month and day
in every year.
-/

namespace Gregorian

structure Date where
  year : Nat
  month : Nat
  day : Nat
  deriving DecidableEq

def leap (year : Nat) : Bool :=
  decide (year % 4 = 0 ∧ (year % 100 ≠ 0 ∨ year % 400 = 0))

def monthLength (isLeap : Bool) : Nat → Nat
  | 2 => if isLeap then 29 else 28
  | 4 => 30
  | 6 => 30
  | 9 => 30
  | 11 => 30
  | _ => 31

def Date.next (date : Date) : Date :=
  if date.day < monthLength (leap date.year) date.month then
    { date with day := date.day + 1 }
  else if date.month < 12 then ⟨date.year, date.month + 1, 1⟩
  else ⟨date.year + 1, 1, 1⟩

/-- The date some days after another one. -/
def dateAfter (start : Date) : Nat → Date
  | 0 => start
  | days + 1 => (dateAfter start days).next

def yearStart (year : Nat) : Nat :=
  365 * year + year / 4 - year / 100 + year / 400

private theorem leap_toNat (year : Nat) :
    (leap year).toNat + (decide (year % 100 = 0)).toNat =
      (decide (year % 4 = 0)).toNat + (decide (year % 400 = 0)).toNat := by
  unfold leap
  by_cases byFour : year % 4 = 0
  · by_cases byHundred : year % 100 = 0
    · by_cases byFourHundred : year % 400 = 0
      · simp [byFour, byHundred, byFourHundred]
      · simp [byFour, byHundred, byFourHundred]
    · have notFourHundred : year % 400 ≠ 0 := by omega
      simp [byFour, byHundred, notFourHundred]
  · have notHundred : year % 100 ≠ 0 := by omega
    have notFourHundred : year % 400 ≠ 0 := by omega
    simp [byFour, notHundred, notFourHundred]

theorem yearStart_succ (year : Nat) :
    yearStart (year + 1) = yearStart year + 365 + (leap (year + 1)).toNat := by
  have fourth : (year + 1) / 4 = year / 4 + (decide ((year + 1) % 4 = 0)).toNat := by
    by_cases divides : (year + 1) % 4 = 0
    · rw [decide_eq_true divides, Bool.toNat_true]
      omega
    · rw [decide_eq_false divides, Bool.toNat_false]
      omega
  have hundredth : (year + 1) / 100 = year / 100 + (decide ((year + 1) % 100 = 0)).toNat := by
    by_cases divides : (year + 1) % 100 = 0
    · rw [decide_eq_true divides, Bool.toNat_true]
      omega
    · rw [decide_eq_false divides, Bool.toNat_false]
      omega
  have fourHundredth : (year + 1) / 400 = year / 400 + (decide ((year + 1) % 400 = 0)).toNat := by
    by_cases divides : (year + 1) % 400 = 0
    · rw [decide_eq_true divides, Bool.toNat_true]
      omega
    · rw [decide_eq_false divides, Bool.toNat_false]
      omega
  have fewer : year / 100 ≤ year / 4 := Nat.div_le_div_left (by decide) (by decide)
  have added := leap_toNat (year + 1)
  unfold yearStart
  rw [fourth, hundredth, fourHundredth]
  omega

theorem yearStart_add_era (year era : Nat) :
    yearStart (year + era * 400) = yearStart year + era * 146097 := by
  unfold yearStart
  omega

theorem exists_year (days : Nat) : ∃ year dayOfYear, days = yearStart year + dayOfYear ∧
    days < yearStart (year + 1) := by
  induction days with
  | zero => exact ⟨0, 0, rfl, by decide⟩
  | succ days ih =>
      rcases ih with ⟨year, dayOfYear, split, inside⟩
      have nextYear := yearStart_succ (year + 1)
      by_cases stays : days + 1 < yearStart (year + 1)
      · exact ⟨year, dayOfYear + 1, by omega, stays⟩
      · exact ⟨year + 1, 0, by omega, by omega⟩

def monthAndDay (dayOfYear : Nat) : Nat × Nat × Nat :=
  let month := (5 * dayOfYear + 2) / 153
  let day := dayOfYear - (153 * month + 2) / 5 + 1
  if month < 10 then (0, month + 3, day) else (1, month - 9, day)

def fromMarch (year dayOfYear : Nat) : Date :=
  ⟨year + (monthAndDay dayOfYear).1, (monthAndDay dayOfYear).2.1, (monthAndDay dayOfYear).2.2⟩

def nextMonthAndDay (isLeap : Bool) (current : Nat × Nat × Nat) : Nat × Nat × Nat :=
  if current.2.2 < monthLength isLeap current.2.1 then
    (current.1, current.2.1, current.2.2 + 1)
  else if current.2.1 < 12 then (current.1, current.2.1 + 1, 1)
  else (current.1 + 1, 1, 1)

private theorem february_last : ∀ dayOfYear < 366, (monthAndDay dayOfYear).2.1 = 2 →
    (monthAndDay dayOfYear).1 = 1 := by
  decide +kernel

private theorem monthAndDay_within : ∀ isLeap, ∀ dayOfYear < 364,
    nextMonthAndDay isLeap (monthAndDay dayOfYear) = monthAndDay (dayOfYear + 1) := by
  decide +kernel

private theorem monthLength_of_ne {month : Nat} (notFebruary : month ≠ 2) (first second : Bool) :
    monthLength first month = monthLength second month := by
  unfold monthLength
  split
  · exact absurd rfl notFebruary
  all_goals rfl

private theorem next_fromMarch {year dayOfYear : Nat} (inside : dayOfYear < 366) :
    (fromMarch year dayOfYear).next =
      ⟨year + (nextMonthAndDay (leap (year + 1)) (monthAndDay dayOfYear)).1,
        (nextMonthAndDay (leap (year + 1)) (monthAndDay dayOfYear)).2.1,
        (nextMonthAndDay (leap (year + 1)) (monthAndDay dayOfYear)).2.2⟩ := by
  have february := february_last dayOfYear inside
  unfold fromMarch Date.next nextMonthAndDay
  simp only
  revert february
  generalize monthAndDay dayOfYear = current
  rcases current with ⟨later, month, day⟩
  intro february
  have length : monthLength (leap (year + later)) month = monthLength (leap (year + 1)) month := by
    by_cases isFebruary : month = 2
    · have half : later = 1 := february isFebruary
      rw [half]
    · exact monthLength_of_ne isFebruary _ _
  rw [length]
  split
  · rfl
  · split
    · rfl
    · rfl

theorem next_within {year dayOfYear : Nat}
    (inside : yearStart year + (dayOfYear + 1) < yearStart (year + 1)) :
    (fromMarch year dayOfYear).next = fromMarch year (dayOfYear + 1) := by
  have length := yearStart_succ year
  have atMost := Bool.toNat_le (leap (year + 1))
  rw [next_fromMarch (show dayOfYear < 366 by omega)]
  by_cases early : dayOfYear < 364
  · rw [monthAndDay_within _ dayOfYear early]
    rfl
  · have isLast : dayOfYear = 364 := by omega
    have isLeap : leap (year + 1) = true := by
      rw [← Bool.toNat_eq_one]
      omega
    subst isLast
    rw [isLeap]
    rfl

theorem next_at_end {year dayOfYear : Nat}
    (last : yearStart year + (dayOfYear + 1) = yearStart (year + 1)) :
    (fromMarch year dayOfYear).next = fromMarch (year + 1) 0 := by
  have length := yearStart_succ year
  rw [next_fromMarch (show dayOfYear < 366 by have := Bool.toNat_le (leap (year + 1)); omega)]
  cases isLeap : leap (year + 1) with
  | true =>
      rw [isLeap, Bool.toNat_true] at length
      have isLast : dayOfYear = 365 := by omega
      subst isLast
      rfl
  | false =>
      rw [isLeap, Bool.toNat_false] at length
      have isLast : dayOfYear = 364 := by omega
      subst isLast
      rfl

end Gregorian
