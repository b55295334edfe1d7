import Mathlib

/-!
# The Gregorian calendar

Dates and times of day, and the seconds from the beginning of 1970 to them.
-/

namespace Calendar

open List

def isLeap (year : Nat) : Bool := year % 4 == 0 && (year % 100 != 0 || year % 400 == 0)

def monthLength (year : Nat) : Nat → Nat
  | 2 => if isLeap year then 29 else 28
  | 4 | 6 | 9 | 11 => 30
  | _ => 31

/-- Days from the beginning of 1970 to that of a year. -/
def yearStart (year : Nat) : Nat :=
  ((List.range (year - 1970)).map fun k => if isLeap (1970 + k) then 366 else 365).sum

/-- Days from the beginning of a year to that of a month. -/
def monthStart (year month : Nat) : Nat :=
  ((List.range (month - 1)).map fun k => monthLength year (k + 1)).sum

structure DateTime where
  year : Nat
  month : Nat
  day : Nat
  hour : Nat
  minute : Nat
  second : Nat

namespace DateTime

variable (x : DateTime)

structure Valid : Prop where
  month : 1 ≤ x.month ∧ x.month ≤ 12
  day : 1 ≤ x.day ∧ x.day ≤ monthLength x.year x.month
  hour : x.hour < 24
  minute : x.minute < 60
  second : x.second < 60

def posix : Nat :=
  (yearStart x.year + monthStart x.year x.month + (x.day - 1)) * 86400 + x.hour * 3600 +
    x.minute * 60 + x.second

end DateTime

theorem isLeap_eq {year} (after : 1970 ≤ year) (before : year < 2100) :
    isLeap year = (year % 4 == 0) := by
  rw [isLeap, Bool.eq_iff_iff]
  simp only [Bool.and_eq_true, Bool.or_eq_true, beq_iff_eq, bne_iff_ne]
  omega

theorem yearStart_eq {n} (before : n ≤ 130) : yearStart (1970 + n) = 365 * n + (n + 1) / 4 := by
  rw [yearStart, Nat.add_sub_cancel_left]
  induction n with
  | zero => rfl
  | succ n ih =>
    rw [range_succ, map_append, sum_append, ih (by omega), map_singleton,
      sum_singleton, isLeap_eq (by omega) (by omega)]
    simp only [beq_iff_eq]
    split <;> omega

end Calendar
