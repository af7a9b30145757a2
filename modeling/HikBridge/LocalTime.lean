import HikBridge.Http.Answers
import HikBridge.Lib.Calendar
import HikBridge.Lib.Signed

/-!
This module contains the local time of the host: the date of a day is the one of the calendar, and the
clock of a time zone differs from UTC by an offset.
-/

namespace HikBridge

open Calendar (IsDate isLeap leapDay daysInMonth daysBefore daysThrough dayNumber withoutLeapDays firstDay
  lastOffset)

section Dates

variable {days era yoe doy : Int}

theorem isLeap_cycle (year era : Int) : isLeap (year + era * 400) = isLeap year := by
  have h4 : (year + era * 400) % 4 = year % 4 := by omega
  have h100 : (year + era * 400) % 100 = year % 100 := by omega
  have h400 : (year + era * 400) % 400 = year % 400 := by omega
  rw [isLeap, isLeap, h4, h100, h400]

theorem daysThrough_cycle (year era : Int)
    : daysThrough (year + era * 400) = daysThrough year + era * 146097 := by
  unfold daysThrough
  omega

theorem yearOfEra_eq (n : Nat)
    : ((n : Int) - (n : Int) / 1460 + (n : Int) / 36524 - (n : Int) / 146096) / 365
        = ((withoutLeapDays n / 365 : Nat) : Int) := by
  unfold withoutLeapDays
  omega

theorem isDate_fromMarch {year mp : Int} (hmp : mp = (5 * doy + 2) / 153) (hpos : 0 ≤ doy)
    (hlt : mp < 10)
    : IsDate year (mp + 3) (doy - (153 * mp + 2) / 5 + 1)
      ∧ dayNumber year (mp + 3) (doy - (153 * mp + 2) / 5 + 1) = daysThrough year + doy - 719468 := by
  have hlength : doy - (153 * mp + 2) / 5 + 1 ≤ daysInMonth year (mp + 3) := by
    unfold daysInMonth
    rw [if_neg (by omega)]
    split
    . omega
    . omega
  refine ⟨⟨by omega, by omega, by omega, hlength⟩, ?_⟩
  have hpred := Calendar.daysThrough_pred year
  have hbefore : daysBefore year (mp + 3) = 59 + leapDay year + (153 * mp + 2) / 5 := by
    rw [daysBefore, if_neg (by omega), Int.add_sub_cancel]
  rw [dayNumber, hbefore]
  omega

theorem isDate_beforeMarch {year mp : Int} (hmp : mp = (5 * doy + 2) / 153)
    (hle : doy ≤ 364 + leapDay (year + 1)) (hge : 10 ≤ mp)
    : IsDate (year + 1) (mp - 9) (doy - (153 * mp + 2) / 5 + 1)
      ∧ dayNumber (year + 1) (mp - 9) (doy - (153 * mp + 2) / 5 + 1)
        = daysThrough year + doy - 719468 := by
  have hleap := Calendar.leapDay_cases (year + 1)
  have hlength : doy - (153 * mp + 2) / 5 + 1 ≤ daysInMonth (year + 1) (mp - 9) := by
    unfold daysInMonth
    split
    . omega
    . omega
  refine ⟨⟨by omega, by omega, by omega, hlength⟩, ?_⟩
  have hbefore : daysBefore (year + 1) (mp - 9) = 31 * (mp - 10) := by
    rw [daysBefore, if_pos (by omega)]
    omega
  rw [dayNumber, hbefore, Int.add_sub_cancel]
  omega

theorem civilFromDays_spec (days : Int)
    : IsDate (civilFromDays days).1 (civilFromDays days).2.1 (civilFromDays days).2.2
      ∧ dayNumber (civilFromDays days).1 (civilFromDays days).2.1 (civilFromDays days).2.2 = days := by
  unfold civilFromDays
  dsimp only
  have hsplit := Int.mul_fdiv_add_fmod (days + 719468) 146097
  have hnonneg : 0 ≤ (days + 719468).fmod 146097 := Int.fmod_nonneg_of_pos _ (by decide)
  have hlt : (days + 719468).fmod 146097 < 146097 := Int.fmod_lt_of_pos _ (by decide)
  generalize (days + 719468).fdiv 146097 = era at hsplit ⊢
  generalize (days + 719468).fmod 146097 = doe at hsplit hnonneg hlt ⊢
  obtain ⟨n, rfl⟩ := Int.eq_ofNat_of_zero_le hnonneg
  rw [yearOfEra_eq]
  rcases @Calendar.year_of_day n (by omega) with ⟨hyear, hfirst, hlast⟩
  generalize withoutLeapDays n / 365 = yoe at hyear hfirst hlast ⊢
  generalize hdoy : (n : Int) - (365 * (yoe : Int) + (yoe : Int) / 4 - (yoe : Int) / 100) = doy
  have hpos : 0 ≤ doy := by
    unfold firstDay at hfirst
    omega
  have hle : doy ≤ 364 + leapDay (yoe + era * 400 + 1) := by
    have hcycle : leapDay (yoe + era * 400 + 1) = leapDay (yoe + 1) := by
      rw [leapDay, leapDay, ← isLeap_cycle (yoe + 1) era, Int.add_right_comm]
    rw [hcycle]
    unfold firstDay lastOffset at hlast
    unfold leapDay
    split at hlast
    . next h =>
      rw [if_pos h]
      omega
    . next h =>
      rw [if_neg h]
      omega
  have hdays : daysThrough (yoe + era * 400) + doy - 719468 = days := by
    have hthrough : daysThrough (yoe : Int) = 365 * (yoe : Int) + (yoe : Int) / 4 - (yoe : Int) / 100 := by
      unfold daysThrough
      omega
    rw [daysThrough_cycle, hthrough]
    omega
  have hleap := Calendar.leapDay_cases (yoe + era * 400 + 1)
  by_cases hmp : (5 * doy + 2) / 153 < 10
  . rw [if_pos hmp, if_neg (by omega), ← hdays]
    exact isDate_fromMarch rfl hpos hmp
  . rw [if_neg hmp, if_pos (by omega), ← hdays]
    exact isDate_beforeMarch rfl hle (by omega)

end Dates

-- `std::tm`
structure Tm where
  tmYear : Int
  tmMon : Int
  tmMday : Int
  tmHour : Int
  tmMin : Int
  tmSec : Int

/--
How the host tells local time: what its time zone adds to UTC at an instant, which is less than a week,
and what a call that fails leaves in the structure.
-/
structure HostClock where
  offset : Int → Int
  offset_gt : ∀ instant, -604800 < offset instant
  failed : Int → Tm

namespace HostClock

variable (clock : HostClock)

def localSeconds (instant : Int) : Int := instant + clock.offset instant

def localYear (instant : Int) : Int := (civilFromDays ((clock.localSeconds instant).fdiv 86400)).1

/--
`localtime`, which fails where the year does not fit its field.
-/
def localTime (instant : Int) : Option Tm :=
  let (year, month, day) := civilFromDays ((clock.localSeconds instant).fdiv 86400)
  let second := (clock.localSeconds instant).fmod 86400
  if Signed.Fits (year - 1900) then
    some ⟨year - 1900, month - 1, day, second / 3600, second / 60 % 60, second % 60⟩
  else
    none

-- `local_time_safe`, which does not look at the result of the call.
def localTimeSafe (value : Int) : Tm := (clock.localTime value).getD (clock.failed value)

theorem localYear_pos {instant : Int} (h : 0 ≤ instant) : 0 < clock.localYear instant := by
  rcases civilFromDays_spec ((clock.localSeconds instant).fdiv 86400) with ⟨hdate, hnumber⟩
  have hoffset := clock.offset_gt instant
  have hdays : -8 < (clock.localSeconds instant).fdiv 86400 := by
    rw [Int.fdiv_eq_ediv_of_nonneg _ (by decide), localSeconds]
    omega
  unfold localYear
  have hbefore := Calendar.daysBefore_add_le hdate
  have hpred := Calendar.daysThrough_pred (civilFromDays ((clock.localSeconds instant).fdiv 86400)).1
  unfold dayNumber at hnumber
  by_contra hyear
  have hmono : daysThrough (civilFromDays ((clock.localSeconds instant).fdiv 86400)).1
      ≤ daysThrough 0 :=
    Calendar.daysThrough_mono (by omega)
  have hzero : daysThrough 0 = 0 := rfl
  omega

end HostClock

end HikBridge
