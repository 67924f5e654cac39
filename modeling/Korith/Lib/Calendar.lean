import Mathlib

/-!
# Dates and times

Dates of the proleptic Gregorian calendar as `datetime` has them, without a time zone. `instant` counts the
microseconds since the first day of the first year. Months follow each other without a gap (`monthStart_nextMonth`),
so an instant belongs to one month (`month_unique`).
-/

namespace Korith

def isLeap (y : Nat) : Bool := decide (y % 4 = 0 ∧ (y % 100 ≠ 0 ∨ y % 400 = 0))

def daysInMonth (y m : Nat) : Nat :=
  if m = 2 then (if isLeap y then 29 else 28)
  else if m = 4 ∨ m = 6 ∨ m = 9 ∨ m = 11 then 30
  else 31

def daysBeforeYear (y : Nat) : Nat := (y - 1) * 365 + (y - 1) / 4 - (y - 1) / 100 + (y - 1) / 400

def daysBeforeMonth (y m : Nat) : Nat := ((List.range (m - 1)).map fun i => daysInMonth y (i + 1)).sum

/-- In microseconds. -/
def aSecond : Nat := 1000000

def aDay : Nat := 86400 * aSecond

def monthStart (y m : Nat) : Nat := (daysBeforeYear y + daysBeforeMonth y m) * aDay

def maxYear : Nat := 9999

def ValidDateTime (year month day hour minute second microsecond : Nat) : Prop :=
  (1 ≤ year ∧ year ≤ maxYear) ∧ (1 ≤ month ∧ month ≤ 12) ∧ (1 ≤ day ∧ day ≤ daysInMonth year month) ∧
    hour < 24 ∧ minute < 60 ∧ second < 60 ∧ microsecond < aSecond
  deriving Decidable

structure DateTime where
  year : Nat
  month : Nat
  day : Nat
  hour : Nat
  minute : Nat
  second : Nat
  microsecond : Nat
  valid : ValidDateTime year month day hour minute second microsecond
  deriving DecidableEq

namespace DateTime

def instant (t : DateTime) : Nat :=
  monthStart t.year t.month + ((t.day - 1) * 86400 + t.hour * 3600 + t.minute * 60 + t.second) * aSecond + t.microsecond

/-- Later than the last whole second of its month. -/
def AfterLastSecond (t : DateTime) : Prop :=
  t.day = daysInMonth t.year t.month ∧ t.hour = 23 ∧ t.minute = 59 ∧ t.second = 59 ∧ t.microsecond ≠ 0
  deriving Decidable

end DateTime

variable {y m k k' x : Nat} {t : DateTime}

/-! ### Months -/

theorem daysInMonth_pos : 0 < daysInMonth y m := by
  unfold daysInMonth
  split_ifs <;> omega

theorem daysBeforeMonth_succ (hm : 1 ≤ m) : daysBeforeMonth y (m + 1) = daysBeforeMonth y m + daysInMonth y m := by
  obtain ⟨i, rfl⟩ := Nat.exists_eq_add_of_le' hm
  simp [daysBeforeMonth, List.range_succ]

theorem daysBeforeYear_succ_eq {n : Nat} :
    daysBeforeYear (n + 2) = daysBeforeYear (n + 1) + (365 + if isLeap (n + 1) then 1 else 0) := by
  have hle : n / 100 ≤ n / 4 := Nat.div_le_div_left (by decide) (by decide)
  have hleap : isLeap (n + 1) = decide (4 ∣ n + 1 ∧ (¬ 100 ∣ n + 1 ∨ 400 ∣ n + 1)) := by
    simp only [isLeap, Nat.dvd_iff_mod_eq_zero, ne_eq]
  have hdvd : 100 ∣ n + 1 → 4 ∣ n + 1 := Nat.dvd_trans (by decide)
  have hdvd' : 400 ∣ n + 1 → 100 ∣ n + 1 := Nat.dvd_trans (by decide)
  simp only [daysBeforeYear, Nat.add_sub_cancel, Nat.reduceSubDiff, Nat.succ_div, hleap]
  generalize n / 4 = a, n / 100 = b, n / 400 = c at hle ⊢
  by_cases h4 : 4 ∣ n + 1
  · by_cases h100 : 100 ∣ n + 1
    · by_cases h400 : 400 ∣ n + 1
      · simp only [h4, h100, h400, if_true, not_true_eq_false, false_or, and_self, decide_true]
        omega
      · simp only [h4, h100, h400, if_true, if_false, not_true_eq_false, or_self, and_false, decide_false,
          Bool.false_eq_true]
        omega
    · have h400 : ¬ 400 ∣ n + 1 := fun h => h100 (hdvd' h)
      simp only [h4, h100, h400, if_true, if_false, not_false_eq_true, true_or, and_self, decide_true]
      omega
  · have h100 : ¬ 100 ∣ n + 1 := fun h => h4 (hdvd h)
    have h400 : ¬ 400 ∣ n + 1 := fun h => h100 (hdvd' h)
    simp only [h4, h100, h400, if_false, false_and, decide_false, Bool.false_eq_true]
    omega

theorem daysBeforeYear_succ (hy : 1 ≤ y) :
    daysBeforeYear (y + 1) = daysBeforeYear y + daysBeforeMonth y 12 + daysInMonth y 12 := by
  have hmonths : daysBeforeMonth y 12 + daysInMonth y 12 = 365 + if isLeap y then 1 else 0 := by
    cases hleap : isLeap y <;> simp [daysBeforeMonth, daysInMonth, List.range_succ, hleap]
  obtain ⟨n, rfl⟩ := Nat.exists_eq_add_of_le' hy
  rw [Nat.add_assoc (daysBeforeYear _), hmonths]
  exact daysBeforeYear_succ_eq

def nextMonth (y m : Nat) : Nat × Nat := if m = 12 then (y + 1, 1) else (y, m + 1)

theorem monthStart_nextMonth (hy : 1 ≤ y) (hm : 1 ≤ m) :
    monthStart (nextMonth y m).1 (nextMonth y m).2 = monthStart y m + daysInMonth y m * aDay := by
  by_cases hlast : m = 12
  · subst hlast
    have hfirst : daysBeforeMonth (y + 1) 1 = 0 := rfl
    simp only [nextMonth, if_true, monthStart, hfirst, Nat.add_zero, daysBeforeYear_succ hy, Nat.add_mul]
  · simp only [nextMonth, hlast, if_false, monthStart, daysBeforeMonth_succ hm, Nat.add_mul, Nat.add_assoc]

def nthMonthStart (k : Nat) : Nat := monthStart (k / 12 + 1) (k % 12 + 1)

def monthIndex (y m : Nat) : Nat := (y - 1) * 12 + (m - 1)

theorem nthMonthStart_monthIndex (hy : 1 ≤ y) (hm : 1 ≤ m) (hm' : m ≤ 12) :
    nthMonthStart (monthIndex y m) = monthStart y m := by
  have hyear : monthIndex y m / 12 + 1 = y := by unfold monthIndex; omega
  have hmonth : monthIndex y m % 12 + 1 = m := by unfold monthIndex; omega
  rw [nthMonthStart, hyear, hmonth]

theorem monthIndex_nextMonth (hy : 1 ≤ y) (hm : 1 ≤ m) :
    monthIndex (nextMonth y m).1 (nextMonth y m).2 = monthIndex y m + 1 := by
  unfold nextMonth monthIndex
  split_ifs with hlast
  · simp only []
    omega
  · simp only []
    omega

theorem nthMonthStart_succ (hy : 1 ≤ y) (hm : 1 ≤ m) (hm' : m ≤ 12) :
    nthMonthStart (monthIndex y m + 1) = monthStart y m + daysInMonth y m * aDay := by
  have hnext : 1 ≤ (nextMonth y m).1 ∧ 1 ≤ (nextMonth y m).2 ∧ (nextMonth y m).2 ≤ 12 := by
    unfold nextMonth
    split_ifs <;> simp only [] <;> omega
  rw [← monthStart_nextMonth hy hm, ← monthIndex_nextMonth hy hm,
    nthMonthStart_monthIndex hnext.1 hnext.2.1 hnext.2.2]

theorem strictMono_nthMonthStart : StrictMono nthMonthStart := by
  refine strictMono_nat_of_lt_succ fun k => ?_
  have hindex : monthIndex (k / 12 + 1) (k % 12 + 1) = k := by
    unfold monthIndex
    omega
  have hsucc := nthMonthStart_succ (Nat.succ_pos (k / 12)) (Nat.succ_pos (k % 12)) (Nat.mod_lt k (by decide))
  rw [Nat.succ_eq_add_one, Nat.succ_eq_add_one, hindex] at hsucc
  rw [hsucc]
  exact Nat.lt_add_of_pos_right (Nat.mul_pos daysInMonth_pos (by decide))

theorem month_unique (hk : nthMonthStart k ≤ x) (hk₁ : x < nthMonthStart (k + 1)) (hk' : nthMonthStart k' ≤ x)
    (hk₁' : x < nthMonthStart (k' + 1)) : k = k' := by
  have hle := strictMono_nthMonthStart.lt_iff_lt.1 (hk.trans_lt hk₁')
  have hle' := strictMono_nthMonthStart.lt_iff_lt.1 (hk'.trans_lt hk₁)
  omega

/-! ### Instants -/

namespace DateTime

theorem monthStart_le_instant : monthStart t.year t.month ≤ t.instant := by
  unfold instant
  omega

theorem instant_le_iff :
    t.instant + aSecond ≤ monthStart t.year t.month + daysInMonth t.year t.month * aDay ↔ ¬ t.AfterLastSecond := by
  obtain ⟨-, -, ⟨hday, hday'⟩, hhour, hminute, hsecond, hmicro⟩ := t.valid
  unfold instant AfterLastSecond aDay aSecond
  unfold aSecond at hmicro
  omega

theorem instant_lt : t.instant < monthStart t.year t.month + daysInMonth t.year t.month * aDay := by
  obtain ⟨-, -, ⟨hday, hday'⟩, hhour, hminute, hsecond, hmicro⟩ := t.valid
  unfold instant aDay aSecond
  unfold aSecond at hmicro
  omega

end DateTime

end Korith
