import Mathlib.Data.Int.Notation
import Mathlib.Data.Nat.Find
import Mathlib.Order.Monotone.Basic

set_option autoImplicit false

/-! # The calendar

Months of the proleptic Gregorian calendar, counted from January of year 1. Times are microseconds
from the beginning of that month. `monthStart` says how many days come before a month, and the month
of a day is the last one that starts by then.
-/

namespace Calendar

def isLeap (year : ℕ) : Bool := year % 4 = 0 ∧ (year % 100 ≠ 0 ∨ year % 400 = 0)

/-- `calendar.monthrange(year, month)[1]` -/
def daysInMonth (month : ℕ) : ℕ :=
  match month % 12 with
  | 1 => if isLeap (month / 12 + 1) then 29 else 28
  | 3 => 30
  | 5 => 30
  | 8 => 30
  | 10 => 30
  | _ => 31

/-- The days before a month. -/
def monthStart : ℕ → ℕ
  | 0 => 0
  | month + 1 => monthStart month + daysInMonth month

/-- The day of a time. -/
def dayOf (t : ℤ) : ℕ := (t / 86400000000).toNat

/-- The month of a day. -/
def monthOf (day : ℕ) : ℕ := Nat.findGreatest (fun month => monthStart month ≤ day) day

/-- The month of a time. -/
def month (t : ℤ) : ℕ := monthOf (dayOf t)

/-- The day of the month, from 1 on. -/
def dayOfMonth (t : ℤ) : ℕ := dayOf t - monthStart (month t) + 1

theorem daysInMonth_pos (month : ℕ) : 0 < daysInMonth month := by
  unfold daysInMonth
  split
  · split
    · omega
    · omega
  all_goals omega

theorem daysInMonth_le (month : ℕ) : daysInMonth month ≤ 31 := by
  unfold daysInMonth
  split
  · split
    · omega
    · omega
  all_goals omega

theorem le_monthStart (month : ℕ) : month ≤ monthStart month := by
  induction month with
  | zero => exact le_rfl
  | succ month ih =>
      have := daysInMonth_pos month
      show month + 1 ≤ monthStart month + daysInMonth month
      omega

theorem monthStart_monthOf_le (day : ℕ) : monthStart (monthOf day) ≤ day :=
  Nat.findGreatest_spec (P := fun month => monthStart month ≤ day) (Nat.zero_le day)
    (Nat.zero_le day)

/-- A month that starts by a day is not later than the day's month. -/
theorem le_monthOf {month day : ℕ} (h : monthStart month ≤ day) : month ≤ monthOf day :=
  Nat.le_findGreatest ((le_monthStart month).trans h) h

theorem lt_monthStart_succ (day : ℕ) : day < monthStart (monthOf day + 1) := by
  by_contra h
  have := le_monthOf (not_lt.mp h)
  omega

theorem monthOf_mono : Monotone monthOf := fun _ _ h =>
  le_monthOf ((monthStart_monthOf_le _).trans h)

theorem month_mono {t t' : ℤ} (h : t ≤ t') : month t ≤ month t' := by
  apply monthOf_mono
  unfold dayOf
  omega

theorem one_le_dayOfMonth (t : ℤ) : 1 ≤ dayOfMonth t := Nat.le_add_left ..

theorem dayOfMonth_le (t : ℤ) : dayOfMonth t ≤ daysInMonth (month t) := by
  have hle := monthStart_monthOf_le (dayOf t)
  have hlt : dayOf t < monthStart (month t) + daysInMonth (month t) := lt_monthStart_succ (dayOf t)
  unfold dayOfMonth
  unfold month at hlt ⊢
  omega

/-- Within a month the day does not go back. -/
theorem dayOfMonth_le_of_le {t t' : ℤ} (h : t ≤ t') (hm : month t = month t') :
    dayOfMonth t ≤ dayOfMonth t' := by
  have hday : dayOf t ≤ dayOf t' := by
    unfold dayOf
    omega
  unfold dayOfMonth
  rw [hm]
  omega

end Calendar
