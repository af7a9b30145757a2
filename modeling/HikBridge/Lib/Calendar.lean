import Mathlib.Data.List.Lex
import Mathlib.Data.Nat.Basic
import Mathlib.Order.Monotone.Basic
import Mathlib.Tactic.IntervalCases

/-!
This module contains the Gregorian calendar: valid dates, the numbers of their days counted from
1970-01-01, the order of dates, and the year and the month of a day within a cycle of 400 years.
-/

namespace Calendar

def isLeap (year : Int) : Bool := year % 4 = 0 && (year % 100 ≠ 0 || year % 400 = 0)

def leapDay (year : Int) : Int := if isLeap year then 1 else 0

def daysInMonth (year month : Int) : Int :=
  if month = 2 then 28 + leapDay year
  else if month = 4 ∨ month = 6 ∨ month = 9 ∨ month = 11 then 30
  else 31

structure IsDate (year month day : Int) : Prop where
  month_pos : 1 ≤ month
  month_le : month ≤ 12
  day_pos : 1 ≤ day
  day_le : day ≤ daysInMonth year month

def daysThrough (year : Int) : Int := 365 * year + year / 4 - year / 100 + year / 400

def daysBefore (year month : Int) : Int :=
  if month ≤ 2 then 31 * (month - 1) else 59 + leapDay year + (153 * (month - 3) + 2) / 5

def dayNumber (year month day : Int) : Int :=
  daysThrough (year - 1) + daysBefore year month + day - 719163

section Days

variable {year month year' month' day day' : Int}

theorem leapDay_cases (year : Int) : leapDay year = 0 ∨ leapDay year = 1 := by
  unfold leapDay
  split
  . exact .inr rfl
  . exact .inl rfl

theorem daysThrough_pred (year : Int) : daysThrough (year - 1) + 365 + leapDay year = daysThrough year := by
  unfold daysThrough leapDay isLeap
  simp only [Bool.and_eq_true, Bool.or_eq_true, decide_eq_true_eq]
  split
  . omega
  . omega

theorem daysThrough_mono (h : year ≤ year') : daysThrough year ≤ daysThrough year' := by
  unfold daysThrough
  omega

theorem daysBefore_succ (hpos : 1 ≤ month) (hle : month ≤ 11)
    : daysBefore year (month + 1) = daysBefore year month + daysInMonth year month := by
  unfold daysBefore daysInMonth
  interval_cases month <;> simp <;> omega

theorem daysInMonth_pos (year month : Int) : 0 < daysInMonth year month := by
  have hleap := leapDay_cases year
  unfold daysInMonth
  split
  . omega
  . split
    . omega
    . omega

theorem daysInMonth_le (year month : Int) : daysInMonth year month ≤ 31 := by
  have hleap := leapDay_cases year
  unfold daysInMonth
  split
  . omega
  . split
    . omega
    . omega

theorem daysBefore_mono (hpos : 1 ≤ month) (hlt : month < month') (hle : month' ≤ 12)
    : daysBefore year month + daysInMonth year month ≤ daysBefore year month' := by
  have hsteps : ∀ k : Nat, month + 1 + k ≤ 12
      → daysBefore year month + daysInMonth year month ≤ daysBefore year (month + 1 + k) := by
    intro k
    induction k with
    | zero =>
      intro hk
      rw [Int.natCast_zero, Int.add_zero, daysBefore_succ hpos (by omega)]
    | succ k ih =>
      intro hk
      have hprev := ih (by omega)
      have hsucc := @daysBefore_succ year (month + 1 + k) (by omega) (by omega)
      have hdays := daysInMonth_pos year (month + 1 + k)
      rw [Int.natCast_succ, ← Int.add_assoc, hsucc]
      omega
  have hmonth : month' = month + 1 + (month' - month - 1).toNat := by omega
  rw [hmonth]
  exact hsteps _ (by omega)

theorem daysBefore_add_le (h : IsDate year month day)
    : daysBefore year month + day ≤ 365 + leapDay year := by
  have hday := h.day_le
  have hdecember : daysBefore year 12 + 31 = 365 + leapDay year := by
    unfold daysBefore
    simp
    omega
  rcases Int.lt_or_eq_of_le h.month_le with hlt | rfl
  . have hbefore : daysBefore year month + daysInMonth year month ≤ daysBefore year 12 :=
      daysBefore_mono h.month_pos hlt (Int.le_refl 12)
    omega
  . have hlength : daysInMonth year 12 = 31 := by
      unfold daysInMonth
      simp
    omega

theorem daysBefore_nonneg (h : IsDate year month day) : 0 ≤ daysBefore year month := by
  have hleap := leapDay_cases year
  have hpos := h.month_pos
  unfold daysBefore
  split
  . omega
  . omega

theorem dayNumber_lt (h : IsDate year month day) (h' : IsDate year' month' day')
    (hlt : [year, month, day] < [year', month', day'])
    : dayNumber year month day < dayNumber year' month' day' := by
  unfold dayNumber
  rw [List.cons_lt_cons_iff, List.cons_lt_cons_iff, List.cons_lt_cons_iff] at hlt
  rcases hlt with hyear | ⟨rfl, hmonth | ⟨rfl, hday | ⟨rfl, hnil⟩⟩⟩
  . have hend := daysBefore_add_le h
    have hpred := daysThrough_pred year
    have hmono : daysThrough year ≤ daysThrough (year' - 1) := daysThrough_mono (by omega)
    have hfirst := daysBefore_nonneg h'
    have hday' := h'.day_pos
    omega
  . have hbefore : daysBefore year month + daysInMonth year month ≤ daysBefore year month' :=
      daysBefore_mono h.month_pos hmonth h'.month_le
    have hday := h.day_le
    have hday' := h'.day_pos
    omega
  . omega
  . exact absurd hnil (List.lt_irrefl _)

theorem lt_of_dayNumber_lt (h : IsDate year month day) (h' : IsDate year' month' day')
    (hlt : dayNumber year month day < dayNumber year' month' day')
    : [year, month, day] < [year', month', day'] := by
  rcases lt_trichotomy [year, month, day] [year', month', day'] with hless | heq | hgreater
  . exact hless
  . cases heq
    exact absurd hlt (Int.lt_irrefl _)
  . have hnumber := dayNumber_lt h' h hgreater
    omega

end Days

section Cycle

def withoutLeapDays (n : Nat) : Nat := n - n / 1460 + n / 36524 - n / 146096

theorem withoutLeapDays_mono : Monotone withoutLeapDays := by
  apply monotone_nat_of_le_succ
  intro n
  have hdvd : 146096 ∣ n + 1 → 36524 ∣ n + 1 := fun h => Nat.dvd_trans (by decide) h
  have hle : n / 146096 ≤ n / 36524 := Nat.div_le_div_left (by decide) (by decide)
  unfold withoutLeapDays
  rw [Nat.succ_div, Nat.succ_div, Nat.succ_div]
  by_cases hcycle : 146096 ∣ n + 1
  . rw [if_pos hcycle, if_pos (hdvd hcycle)]
    split
    . omega
    . omega
  . rw [if_neg hcycle]
    split
    . split
      . omega
      . omega
    . split
      . omega
      . omega

def firstDay (year : Nat) : Nat := 365 * year + year / 4 - year / 100

def lastOffset (year : Nat) : Nat := if isLeap (year + 1) then 365 else 364

theorem cycle_years : ∀ year < 400, 365 * year ≤ withoutLeapDays (firstDay year)
    ∧ withoutLeapDays (firstDay year + lastOffset year) < 365 * (year + 1)
    ∧ (year < 399 → firstDay (year + 1) = firstDay year + lastOffset year + 1) := by
  decide +kernel

theorem year_of_day {n : Nat} (hn : n < 146097)
    : withoutLeapDays n / 365 < 400 ∧ firstDay (withoutLeapDays n / 365) ≤ n
      ∧ n ≤ firstDay (withoutLeapDays n / 365) + lastOffset (withoutLeapDays n / 365) := by
  have hlast : withoutLeapDays n ≤ withoutLeapDays 146096 := withoutLeapDays_mono (by omega)
  have hvalue : withoutLeapDays 146096 = 145999 := by decide
  have hyear : withoutLeapDays n / 365 < 400 := by omega
  generalize hdef : withoutLeapDays n / 365 = year at hyear ⊢
  refine ⟨hyear, ?_, ?_⟩
  . by_contra hlt
    cases year with
    | zero => exact hlt (Nat.zero_le _)
    | succ year =>
      rcases cycle_years year (by omega) with ⟨-, hend, hnext⟩
      have hle : withoutLeapDays n ≤ withoutLeapDays (firstDay year + lastOffset year) :=
        withoutLeapDays_mono (by have := hnext (by omega); omega)
      omega
  . by_contra hgt
    rcases Nat.lt_or_ge year 399 with hless | hge
    . rcases cycle_years (year + 1) (by omega) with ⟨hstart, -, -⟩
      rcases cycle_years year hyear with ⟨-, -, hnext⟩
      have hle : withoutLeapDays (firstDay (year + 1)) ≤ withoutLeapDays n :=
        withoutLeapDays_mono (by have := hnext hless; omega)
      omega
    . have h399 : year = 399 := by omega
      subst h399
      have hend : firstDay 399 + lastOffset 399 = 146096 := by decide
      omega

end Cycle

end Calendar
