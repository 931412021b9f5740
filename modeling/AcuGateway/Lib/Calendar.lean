/-
The proleptic Gregorian calendar on day numbers.

Days are counted from 1 January 1970.  Months are counted by one index,
`12 * year + (month - 1)`, so that adding months is adding to the index and an
out-of-range month normalises by itself.

* `monthStart i` — the day number of the first day of month `i`;
* `monthOf n` — the month that day `n` lies in;
* `lt_monthStart_succ` — a day comes before the month that follows its own;
* `weekday n` — the day of the week, Sunday being 0.
-/
import Mathlib.Tactic.Common

namespace Calendar

/-- 29 February exists in year `y`. -/
def isLeap (y : Int) : Bool := y % 4 = 0 && (y % 100 ≠ 0 || y % 400 = 0)

/-- The day number of 1 January of year `y`. -/
def yearStart (y : Int) : Int :=
  365 * (y - 1) + (y - 1) / 4 - (y - 1) / 100 + (y - 1) / 400 - 719162

/-- The days of a year before its month `m`, counted from 0. -/
def monthOffset (leap : Bool) (m : Int) : Int :=
  (367 * m + 5) / 12 - (if m < 2 then 0 else if leap then 1 else 2)

/-- The day number of the first day of month `i`. -/
def monthStart (i : Int) : Int := yearStart (i / 12) + monthOffset (isLeap (i / 12)) (i % 12)

/-- The year that day `n` lies in: an estimate by the mean length of a year,
corrected by at most one year. -/
def yearOf (n : Int) : Int :=
  let y := (n + 719162) * 400 / 146097 + 1
  if n < yearStart y then y - 1 else if yearStart (y + 1) ≤ n then y + 1 else y

/-- The month of the year, counted from 0, of the `d`-th day of a year. -/
def monthOfYear (leap : Bool) (d : Int) : Int :=
  let february := if leap then 60 else 59
  let shift := if d < february then 0 else if leap then 1 else 2
  (12 * (d + shift) + 373) / 367 - 1

/-- The month that day `n` lies in. -/
def monthOf (n : Int) : Int :=
  12 * yearOf n + monthOfYear (isLeap (yearOf n)) (n - yearStart (yearOf n))

/-- The day of the week, Sunday being 0. -/
def weekday (n : Int) : Int := (n + 4) % 7

theorem yearStart_succ (y : Int) :
    yearStart (y + 1) = yearStart y + (if isLeap y then 366 else 365) := by
  unfold yearStart
  by_cases h : isLeap y = true
  · rw [if_pos h]
    simp only [isLeap, Bool.and_eq_true, Bool.or_eq_true, decide_eq_true_eq] at h
    omega
  · rw [if_neg h]
    simp only [isLeap, Bool.and_eq_true, Bool.or_eq_true, decide_eq_true_eq, not_and, not_or] at h
    omega

theorem yearStart_yearOf_le (n : Int) : yearStart (yearOf n) ≤ n := by
  unfold yearOf
  dsimp only
  split_ifs with h h'
  · unfold yearStart; omega
  · exact h'
  · omega

theorem lt_yearStart_succ (n : Int) : n < yearStart (yearOf n + 1) := by
  unfold yearOf
  dsimp only
  split_ifs with h h'
  · rw [Int.sub_add_cancel]; exact h
  · unfold yearStart; omega
  · omega

theorem monthOfYear_bounds {leap : Bool} {d : Int} (h0 : 0 ≤ d)
    (h1 : d < if leap then 366 else 365) :
    0 ≤ monthOfYear leap d ∧ monthOfYear leap d < 12 := by
  cases leap <;> simp only [monthOfYear, Bool.false_eq_true, if_true, if_false] at h1 ⊢ <;>
    split_ifs <;> omega

theorem lt_monthOffset_succ {leap : Bool} {d : Int} (h0 : 0 ≤ d)
    (h1 : d < if leap then 366 else 365) : d < monthOffset leap (monthOfYear leap d + 1) := by
  cases leap <;> simp only [monthOfYear, monthOffset, Bool.false_eq_true, if_true,
    if_false] at h1 ⊢ <;> split_ifs <;> omega

/-- Month 12 of a year is January of the next one. -/
theorem yearStart_add_monthOffset_twelve (y : Int) :
    yearStart y + monthOffset (isLeap y) 12 = yearStart (y + 1) := by
  rw [yearStart_succ]
  cases isLeap y <;> simp [monthOffset]

/-- The start of a month, from its year and its month of the year. -/
theorem monthStart_eq {y m : Int} (h0 : 0 ≤ m) (h1 : m ≤ 12) :
    monthStart (12 * y + m) = yearStart y + monthOffset (isLeap y) m := by
  unfold monthStart
  rcases Int.lt_or_eq_of_le h1 with h1 | rfl
  · rw [show (12 * y + m) / 12 = y by omega, show (12 * y + m) % 12 = m by omega]
  · rw [yearStart_add_monthOffset_twelve, show (12 * y + 12) / 12 = y + 1 by omega,
      show (12 * y + 12) % 12 = 0 by omega]
    simp [monthOffset]

theorem day_of_year_bounds (n : Int) : 0 ≤ n - yearStart (yearOf n) ∧
      n - yearStart (yearOf n) < if isLeap (yearOf n) then 366 else 365 := by
  have h1 := yearStart_yearOf_le n
  have h2 := lt_yearStart_succ n
  rw [yearStart_succ] at h2
  omega

theorem lt_monthStart_succ (n : Int) : n < monthStart (monthOf n + 1) := by
  obtain ⟨h0, h1⟩ := day_of_year_bounds n
  obtain ⟨hm0, hm1⟩ := monthOfYear_bounds h0 h1
  have h := lt_monthOffset_succ h0 h1
  rw [monthOf, Int.add_assoc, monthStart_eq (by omega) (by omega)]
  omega

example : monthStart (12 * 2024 + 2) = 19783 ∧ monthOf 19782 = 12 * 2024 + 1 := by decide

end Calendar
