import Mathlib.Algebra.BigOperators.Intervals
import Mathlib.Tactic

/-!
# The Gregorian calendar

Days are counted by summing the lengths of the years and months before them; `daysBeforeYear_eq` is the closed form.
-/

namespace Calendar

def IsLeap (y : Nat) : Prop := y % 4 = 0 ∧ (y % 100 ≠ 0 ∨ y % 400 = 0)

instance IsLeap.decidable (y : Nat) : Decidable (IsLeap y) := inferInstanceAs (Decidable (_ ∧ _))

def daysInYear (y : Nat) : Nat := if IsLeap y then 366 else 365

def daysInMonth (y m : Nat) : Nat :=
  if m = 2 then if IsLeap y then 29 else 28 else if m = 4 ∨ m = 6 ∨ m = 9 ∨ m = 11 then 30 else 31

def daysBeforeYear (y : Nat) : Nat := ∑ i ∈ Finset.range y, daysInYear i

def daysBeforeMonth (y m : Nat) : Nat := ∑ i ∈ Finset.Ico 1 m, daysInMonth y i

/-- The number of a day. The first day of a month is its day 1, whatever the number of days the month has. -/
def dayNumber (y m d : Nat) : Nat := daysBeforeYear y + daysBeforeMonth y m + d

theorem daysBeforeYear_eq (y : Nat) :
    daysBeforeYear y + (y + 99) / 100 = 365 * y + (y + 3) / 4 + (y + 399) / 400 := by
  induction y with
  | zero => rfl
  | succ y ih =>
    rw [daysBeforeYear, Finset.sum_range_succ, ← daysBeforeYear, daysInYear]
    -- each of the three quotients grows with the years that it counts
    have h4 : (y + 1 + 3) / 4 = (y + 3) / 4 + if y % 4 = 0 then 1 else 0 := by split <;> omega
    have h100 : (y + 1 + 99) / 100 = (y + 99) / 100 + if y % 100 = 0 then 1 else 0 := by split <;> omega
    have h400 : (y + 1 + 399) / 400 = (y + 399) / 400 + if y % 400 = 0 then 1 else 0 := by split <;> omega
    have h400_100 : y % 400 = 0 → y % 100 = 0 := by omega
    have h100_4 : y % 100 = 0 → y % 4 = 0 := by omega
    have hleap : (if IsLeap y then 366 else 365) + (if y % 100 = 0 then 1 else 0) =
        365 + (if y % 4 = 0 then 1 else 0) + if y % 400 = 0 then 1 else 0 := by
      unfold IsLeap
      by_cases hy400 : y % 400 = 0
      · simp [hy400, h400_100 hy400, h100_4 (h400_100 hy400)]
      · by_cases hy100 : y % 100 = 0
        · simp [hy400, hy100, h100_4 hy100]
        · simp only [hy400, hy100, ne_eq, not_false_eq_true, or_false, and_true, if_false, Nat.add_zero]
          split <;> rfl
    rw [h4, h100, h400]
    omega

/-- The days of a year before a month. -/
theorem daysBeforeMonth_eq {y m : Nat} (h0 : 1 ≤ m) (h1 : m ≤ 12) :
    daysBeforeMonth y m = [0, 31, 59, 90, 120, 151, 181, 212, 243, 273, 304, 334].getD (m - 1) 0 +
      if 3 ≤ m ∧ IsLeap y then 1 else 0 := by
  unfold daysBeforeMonth
  by_cases hleap : IsLeap y <;> interval_cases m <;> simp [Finset.sum_Ico_succ_top, daysInMonth, hleap]

end Calendar
