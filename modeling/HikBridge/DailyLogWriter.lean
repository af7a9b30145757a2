import HikBridge.Lib.FixedWidth
import HikBridge.LocalTime

/-!
This module contains the retention of the daily log files.
-/

namespace HikBridge.DailyLogWriter

structure LogHost extends HostClock where
  mktime : Tm → Int
  mktime_noon : ∀ year month day, 1970 ≤ year → year ≤ 9999 → 1 ≤ month → month ≤ 12 → Signed.Fits day →
    (toHostClock.localSeconds (mktime ⟨year - 1900, month - 1, day, 12, 0, 0⟩)).fdiv 86400
      = Calendar.dayNumber year month day

/--
A file in the log directory. Its last write, which may not be known, and the clock are in nanoseconds
since 1970. The difference of two instants does not depend on where a clock starts.
-/
structure LogEntry where
  name : Bytes
  regular : Bool
  lastWrite : Option Int
  clock : Int
  lastWrite_ge : ∀ modified, lastWrite = some modified → -9223372036854775808 ≤ modified
  lastWrite_lt : ∀ modified, lastWrite = some modified → modified < 9223372036854775808
  clock_nonneg : 0 ≤ clock

section Source

variable (host : LogHost) (retentionDays : Int)

-- `"%F"`
def dayKey (now : Int) : Bytes :=
  let value := host.localTimeSafe now
  Bytes.ofInt (value.tmYear + 1900) ++ 45 :: (twoDigits (value.tmMon + 1) ++ 45 :: twoDigits value.tmMday)

def isDailyLogName (name : Bytes) : Bool :=
  name.length = 14 && name.drop 10 = [46, 108, 111, 103] && name.getD 4 0 = 45 && name.getD 7 0 = 45
    && (List.range 10).all fun index => index = 4 || index = 7 || Numeral.isDecimal (name.getD index 0)

-- `fs::path::extension`
def extension (name : Bytes) : Bytes :=
  let ending := name.reverse.takeWhile fun c => c ≠ 46
  if name = [46] ∨ name = [46, 46] ∨ name.length ≤ ending.length + 1 then [] else 46 :: ending.reverse

def cutoffTime (now : Int) : Int :=
  let cutoff := host.localTimeSafe now
  host.mktime { cutoff with tmHour := 12, tmMin := 0, tmSec := 0, tmMday := cutoff.tmMday - retentionDays }

-- The hours are an `int`, everything else has 64 bits.
def ticks (n : Int) : Int := Int.bmod n (2 ^ 64)

def olderThan (entry : LogEntry) : Bool :=
  match entry.lastWrite with
  | none => false
  | some modified => ticks (entry.clock - modified) > ticks (Signed.wrap (24 * retentionDays) * 3600000000000)

def expired (now : Int) (entry : LogEntry) : Bool :=
  if isDailyLogName entry.name then
    entry.name.take 10 < dayKey host (cutoffTime host retentionDays now)
  else
    olderThan retentionDays entry

-- The files that are removed.
def cleanup (now : Int) (entries : List LogEntry) : List LogEntry :=
  entries.filter fun entry =>
    entry.regular && extension entry.name = [46, 108, 111, 103] && expired host retentionDays now entry

end Source

section Retention

variable {host : LogHost} {retentionDays now : Int} {entry : LogEntry} {name : Bytes} {year month day : Nat}

-- The local day, counted from 1970-01-01.
def today (host : LogHost) (now : Int) : Int := (host.localSeconds now).fdiv 86400

def dateText (year month day : Nat) : Bytes :=
  Numeral.fixed 4 year ++ 45 :: (Numeral.fixed 2 month ++ 45 :: Numeral.fixed 2 day)

structure IsDailyName (name : Bytes) (year month day : Nat) : Prop where
  year_lt : year < 10000
  month_lt : month < 100
  day_lt : day < 100
  name_eq : name = dateText year month day ++ [46, 108, 111, 103]

/--
What the retention of so many days gives up: a file of an earlier date than so many days before today, or
one with another name that has not been written for longer.
-/
def Expired (host : LogHost) (retentionDays now : Int) (entry : LogEntry) : Prop :=
  (∃ year month day, IsDailyName entry.name year month day ∧
    ∃ year' month' day', Calendar.IsDate year' month' day' ∧
      Calendar.dayNumber year' month' day' = today host now - retentionDays ∧
      [(year : Int), (month : Int), (day : Int)] < [year', month', day'])
  ∨ (∀ year month day, ¬IsDailyName entry.name year month day) ∧
    ∃ modified, entry.lastWrite = some modified ∧ retentionDays * 86400000000000 < entry.clock - modified

/--
Only regular `.log` files are removed that have expired, and never the one of today.
-/
def RemovesExpired (host : LogHost) (retentionDays now : Int) : Prop :=
  ∀ entries, ∀ entry ∈ cleanup host retentionDays now entries,
    entry.regular = true ∧ extension entry.name = [46, 108, 111, 103] ∧ Expired host retentionDays now entry
      ∧ entry.name ≠ dayKey host now ++ [46, 108, 111, 103]

theorem length_dateText (year month day : Nat) : (dateText year month day).length = 10 := by
  simp [dateText, Numeral.length_fixed]

theorem IsDailyName.take (h : IsDailyName name year month day) : name.take 10 = dateText year month day := by
  rw [h.name_eq, ← length_dateText year month day]
  exact List.take_left

theorem IsDailyName.isDailyLogName (h : IsDailyName name year month day) : isDailyLogName name = true := by
  have hdate : dateText year month day = [Numeral.digit (year / 10 / 10 / 10), Numeral.digit (year / 10 / 10),
      Numeral.digit (year / 10), Numeral.digit year, 45, Numeral.digit (month / 10), Numeral.digit month, 45,
      Numeral.digit (day / 10), Numeral.digit day] := by
    simp [dateText, Numeral.fixed]
  rw [h.name_eq, hdate]
  simp [DailyLogWriter.isDailyLogName, Numeral.isDecimal_digit, List.range_succ]

theorem exists_of_isDailyLogName (h : isDailyLogName name = true)
    : ∃ year month day, IsDailyName name year month day := by
  unfold isDailyLogName at h
  simp only [Bool.and_eq_true, decide_eq_true_eq, List.all_eq_true, Bool.or_eq_true, List.mem_range] at h
  obtain ⟨⟨⟨⟨hlength, hending⟩, hfirst⟩, hsecond⟩, hdigits⟩ := h
  have hname : name.take 10 = (List.range 10).map fun i => name.getD i 0 := by
    apply List.ext_getElem
    . simp [hlength]
    . intro i hi _
      rw [List.length_take] at hi
      rw [List.getElem_take, List.getElem_map, List.getElem_range, List.getD_eq_getElem?_getD,
        List.getElem?_eq_getElem (by omega), Option.getD_some]
  have hpart : ∀ indices : List Nat, (∀ i ∈ indices, i < 10 ∧ i ≠ 4 ∧ i ≠ 7) →
      ∃ n < 10 ^ indices.length, (indices.map fun i => name.getD i 0) = Numeral.fixed indices.length n := by
    intro indices hindices
    have hdecimal : ∀ c ∈ indices.map fun i => name.getD i 0, Numeral.isDecimal c = true := by
      intro c hc
      obtain ⟨i, hi, rfl⟩ := List.mem_map.mp hc
      obtain ⟨hlt, hne, hne'⟩ := hindices i hi
      exact (hdigits i hlt).resolve_left (fun h => h.elim hne hne')
    have hfixed := Numeral.exists_fixed hdecimal
    rw [List.length_map] at hfixed
    exact hfixed
  obtain ⟨year, hyear, hyearText⟩ := hpart [0, 1, 2, 3] (by decide)
  obtain ⟨month, hmonth, hmonthText⟩ := hpart [5, 6] (by decide)
  obtain ⟨day, hday, hdayText⟩ := hpart [8, 9] (by decide)
  refine ⟨year, month, day, hyear, hmonth, hday, ?_⟩
  have hdate : name.take 10 = dateText year month day := by
    change _ = Numeral.fixed 4 year at hyearText
    change _ = Numeral.fixed 2 month at hmonthText
    change _ = Numeral.fixed 2 day at hdayText
    rw [dateText, hname, ← hyearText, ← hmonthText, ← hdayText]
    nth_rewrite 1 [← hfirst]
    rw [← hsecond]
    rfl
  rw [← hdate, ← hending, List.take_append_drop]

theorem dateText_lt_iff {year' month' day' : Nat} (hyear : year < 10000) (hyear' : year' < 10000)
    (hmonth : month < 100) (hmonth' : month' < 100) (hday : day < 100) (hday' : day' < 100)
    : dateText year month day < dateText year' month' day'
        ↔ [(year : Int), (month : Int), (day : Int)] < [(year' : Int), (month' : Int), (day' : Int)] := by
  have hsep : ¬(45 : UInt8) < 45 := by decide
  have hyears := @Numeral.fixed_injective 4 year year' hyear hyear'
  have hmonths := @Numeral.fixed_injective 2 month month' hmonth hmonth'
  unfold dateText
  rw [Numeral.append_lt_append_iff (by rw [Numeral.length_fixed, Numeral.length_fixed]), List.cons_lt_cons_iff,
    Numeral.append_lt_append_iff (by rw [Numeral.length_fixed, Numeral.length_fixed]), List.cons_lt_cons_iff,
    @Numeral.fixed_lt_iff 4 year year' hyear hyear', @Numeral.fixed_lt_iff 2 month month' hmonth hmonth',
    @Numeral.fixed_lt_iff 2 day day' hday hday', List.cons_lt_cons_iff, List.cons_lt_cons_iff, List.cons_lt_cons_iff]
  have hnil : ¬([] : List Int) < [] := List.not_lt_nil _
  simp only [hsep, false_or, true_and, hnil, and_false, or_false, Int.ofNat_lt, Int.natCast_inj]
  constructor
  . rintro (hless | ⟨heq, hless | ⟨heq', hless⟩⟩)
    . exact .inl hless
    . exact .inr ⟨hyears heq, .inl hless⟩
    . exact .inr ⟨hyears heq, .inr ⟨hmonths heq', hless⟩⟩
  . rintro (hless | ⟨rfl, hless | ⟨rfl, hless⟩⟩)
    . exact .inl hless
    . exact .inr ⟨rfl, .inl hless⟩
    . exact .inr ⟨rfl, .inr ⟨rfl, hless⟩⟩

theorem ofInt_natCast (n : Nat) : Bytes.ofInt n = Numeral.numeral 10 n := by
  unfold Bytes.ofInt Bytes.ofNat
  rw [if_neg (by omega), Int.natAbs_natCast]

theorem twoDigits_eq_fixed {n : Nat} (h : n < 100) : twoDigits n = Numeral.fixed 2 n := by
  unfold twoDigits
  rw [ofInt_natCast]
  by_cases hlt : n < 10
  . have hzero : Numeral.fixed 1 (n / 10) = [48] := by
      rw [Nat.div_eq_of_lt hlt]
      decide
    rw [if_pos (by omega), @Numeral.numeral_eq_fixed 0 n (.inl rfl) (by omega)]
    change _ = Numeral.fixed 1 (n / 10) ++ [Numeral.digit n]
    rw [hzero]
    rfl
  . rw [if_neg (by omega)]
    exact @Numeral.numeral_eq_fixed 1 n (.inr (by omega)) (by omega)

theorem ofInt_eq_fixed {n : Nat} (hge : 1000 ≤ n) (hlt : n < 10000) : Bytes.ofInt n = Numeral.fixed 4 n := by
  rw [ofInt_natCast]
  exact @Numeral.numeral_eq_fixed 3 n (.inr (by omega)) (by omega)

theorem exists_localTimeSafe {instant : Int} (h : Signed.Fits (host.localYear instant - 1900))
    : ∃ hour minute second, host.localTimeSafe instant = ⟨host.localYear instant - 1900,
        (civilFromDays (today host instant)).2.1 - 1, (civilFromDays (today host instant)).2.2,
        hour, minute, second⟩ := by
  unfold HostClock.localTimeSafe HostClock.localTime
  unfold HostClock.localYear at h ⊢
  dsimp only
  rw [if_pos h]
  exact ⟨_, _, _, rfl⟩

theorem dayKey_eq {instant : Int} (hge : 1000 ≤ host.localYear instant) (hle : host.localYear instant ≤ 9999)
    : ∃ year month day : Nat, dayKey host instant = dateText year month day
        ∧ Calendar.IsDate year month day
        ∧ Calendar.dayNumber year month day = today host instant
        ∧ host.localYear instant = year
        ∧ month < 100 ∧ day < 100 := by
  obtain ⟨hdate, hnumber⟩ := civilFromDays_spec (today host instant)
  have hfits : Signed.Fits (host.localYear instant - 1900) := by
    unfold Signed.Fits
    omega
  obtain ⟨hour, minute, second, htime⟩ := exists_localTimeSafe hfits
  have hmonth := hdate.month_pos
  have hmonth' := hdate.month_le
  have hday := hdate.day_pos
  have hday' := hdate.day_le
  have hlength := Calendar.daysInMonth_le (civilFromDays (today host instant)).1
    (civilFromDays (today host instant)).2.1
  change Calendar.IsDate (host.localYear instant) _ _ at hdate
  change Calendar.dayNumber (host.localYear instant) _ _ = _ at hnumber
  obtain ⟨year, hyear⟩ := Int.eq_ofNat_of_zero_le (show 0 ≤ host.localYear instant by omega)
  obtain ⟨month, hmonthEq⟩ := Int.eq_ofNat_of_zero_le (show 0 ≤ (civilFromDays (today host instant)).2.1 by omega)
  obtain ⟨day, hdayEq⟩ := Int.eq_ofNat_of_zero_le (show 0 ≤ (civilFromDays (today host instant)).2.2 by omega)
  rw [hyear] at hge hle
  rw [hyear, hmonthEq, hdayEq] at hdate hnumber htime
  refine ⟨year, month, day, ?_, hdate, hnumber, hyear, by omega, by omega⟩
  unfold dayKey
  rw [htime]
  dsimp only
  rw [Int.sub_add_cancel, Int.sub_add_cancel, ofInt_eq_fixed (by omega) (by omega),
    twoDigits_eq_fixed (by omega), twoDigits_eq_fixed (by omega)]
  rfl

section Cutoff

variable (hpos : 1 ≤ retentionDays) (hyear : 1970 ≤ host.localYear now) (hyear' : host.localYear now ≤ 9999)

include hpos hyear hyear'

theorem today_cutoffTime (hfits : Signed.Fits retentionDays)
    : today host (cutoffTime host retentionDays now) = today host now - retentionDays := by
  obtain ⟨hdate, hnumber⟩ := civilFromDays_spec (today host now)
  have hlocal : Signed.Fits (host.localYear now - 1900) := by
    unfold Signed.Fits
    omega
  obtain ⟨hour, minute, second, htime⟩ := exists_localTimeSafe hlocal
  have hday := hdate.day_pos
  have hday' : (civilFromDays (today host now)).2.2 ≤ 31 := hdate.day_le.trans (Calendar.daysInMonth_le _ _)
  have hnoon := host.mktime_noon (host.localYear now) (civilFromDays (today host now)).2.1
    ((civilFromDays (today host now)).2.2 - retentionDays) hyear hyear' hdate.month_pos hdate.month_le (by
      unfold Signed.Fits at hfits ⊢
      omega)
  change Calendar.dayNumber (host.localYear now) _ _ = _ at hnumber
  unfold cutoffTime today
  rw [htime]
  dsimp only
  rw [hnoon, Calendar.dayNumber]
  rw [Calendar.dayNumber] at hnumber
  unfold today at hnumber ⊢
  omega

theorem localYear_cutoffTime (hle : retentionDays ≤ 106751)
    : 1000 ≤ host.localYear (cutoffTime host retentionDays now)
      ∧ host.localYear (cutoffTime host retentionDays now) ≤ 9999 := by
  have hfits : Signed.Fits retentionDays := by
    unfold Signed.Fits
    omega
  have hcutoff := today_cutoffTime hpos hyear hyear' hfits
  obtain ⟨hdate, hnumber⟩ := civilFromDays_spec (today host now)
  obtain ⟨hdate', hnumber'⟩ := civilFromDays_spec (today host (cutoffTime host retentionDays now))
  change Calendar.IsDate (host.localYear now) _ _ at hdate
  change Calendar.dayNumber (host.localYear now) _ _ = _ at hnumber
  change Calendar.IsDate (host.localYear _) _ _ at hdate'
  change Calendar.dayNumber (host.localYear _) _ _ = _ at hnumber'
  constructor
  . by_contra hlow
    have hmono : Calendar.daysThrough (host.localYear (cutoffTime host retentionDays now) - 1)
        ≤ Calendar.daysThrough 998 := Calendar.daysThrough_mono (by omega)
    have hmono' : Calendar.daysThrough 1969 ≤ Calendar.daysThrough (host.localYear now - 1) :=
      Calendar.daysThrough_mono (by omega)
    have hthrough : Calendar.daysThrough 998 = 364512 := by decide
    have hthrough' : Calendar.daysThrough 1969 = 719162 := by decide
    have hbefore := Calendar.daysBefore_add_le hdate'
    have hleap := Calendar.leapDay_cases (host.localYear (cutoffTime host retentionDays now))
    have hnonneg := Calendar.daysBefore_nonneg hdate
    have hday := hdate.day_pos
    unfold Calendar.dayNumber at hnumber hnumber'
    omega
  . have hlt := Calendar.lt_of_dayNumber_lt hdate' hdate (by omega)
    rw [List.cons_lt_cons_iff] at hlt
    rcases hlt with hlt | ⟨heq, _⟩
    . omega
    . omega

end Cutoff

theorem ticks_of_small {n : Int} (hge : -9223372036854775808 ≤ n) (hlt : n < 9223372036854775808) : ticks n = n := by
  unfold ticks
  apply Int.bmod_eq_of_le
  . omega
  . omega

-- A difference that does not fit wraps around only to lower values.
theorem ticks_le {n : Int} (hge : -9223372036854775808 ≤ n) : ticks n ≤ n := by
  by_cases hlt : n < 9223372036854775808
  . rw [ticks_of_small hge hlt]
  . have hle := @Int.bmod_le n (2 ^ 64) (by omega)
    unfold ticks
    omega

theorem ticks_retention (hpos : 1 ≤ retentionDays) (hle : retentionDays ≤ 106751)
    : ticks (Signed.wrap (24 * retentionDays) * 3600000000000) = retentionDays * 86400000000000 := by
  have hfits : Signed.Fits (24 * retentionDays) := by
    unfold Signed.Fits
    omega
  rw [Signed.wrap_of_fits hfits, ticks_of_small (by omega) (by omega)]
  omega

theorem olderThan_sound (hpos : 1 ≤ retentionDays) (hle : retentionDays ≤ 106751)
    (h : olderThan retentionDays entry = true)
    : ∃ modified, entry.lastWrite = some modified ∧ retentionDays * 86400000000000 < entry.clock - modified := by
  unfold olderThan at h
  cases hmodified : entry.lastWrite with
  | none =>
    rw [hmodified] at h
    cases h
  | some modified =>
    rw [hmodified] at h
    simp only [decide_eq_true_eq, gt_iff_lt, ticks_retention hpos hle] at h
    have hclock := entry.clock_nonneg
    have hlt := entry.lastWrite_lt modified hmodified
    have hticks := @ticks_le (entry.clock - modified) (by omega)
    exact ⟨modified, rfl, by omega⟩

theorem IsDailyName.expired (h : IsDailyName name year month day) (hpos : 1 ≤ retentionDays)
    (hle : retentionDays ≤ 106751) (hyear : 1970 ≤ host.localYear now) (hyear' : host.localYear now ≤ 9999)
    (hlt : name.take 10 < dayKey host (cutoffTime host retentionDays now))
    : ∃ year' month' day', Calendar.IsDate year' month' day' ∧
        Calendar.dayNumber year' month' day' = today host now - retentionDays ∧
        [(year : Int), (month : Int), (day : Int)] < [year', month', day'] := by
  have hfits : Signed.Fits retentionDays := by
    unfold Signed.Fits
    omega
  obtain ⟨hlow, hhigh⟩ := localYear_cutoffTime hpos hyear hyear' hle
  obtain ⟨year', month', day', hkey, hdate, hnumber, hlocal, hmonth, hday⟩ := dayKey_eq hlow hhigh
  rw [today_cutoffTime hpos hyear hyear' hfits] at hnumber
  rw [h.take, hkey, dateText_lt_iff h.year_lt (by omega) h.month_lt hmonth h.day_lt hday] at hlt
  exact ⟨year', month', day', hdate, hnumber, hlt⟩

theorem exists_todayName (hyear : 1970 ≤ host.localYear now) (hyear' : host.localYear now ≤ 9999)
    : ∃ year month day : Nat, IsDailyName (dayKey host now ++ [46, 108, 111, 103]) year month day
        ∧ Calendar.IsDate year month day ∧ Calendar.dayNumber year month day = today host now := by
  obtain ⟨year, month, day, hkey, hdate, hnumber, hlocal, hmonth, hday⟩ := dayKey_eq (by omega) hyear'
  exact ⟨year, month, day, ⟨by omega, hmonth, hday, by rw [hkey]⟩, hdate, hnumber⟩

theorem removesExpired_of_le (hpos : 1 ≤ retentionDays) (hle : retentionDays ≤ 106751)
    (hyear : 1970 ≤ host.localYear now) (hyear' : host.localYear now ≤ 9999)
    : RemovesExpired host retentionDays now := by
  intro entries entry hentry
  obtain ⟨-, hremoved⟩ := List.mem_filter.mp hentry
  simp only [Bool.and_eq_true, decide_eq_true_eq] at hremoved
  obtain ⟨⟨hregular, hextension⟩, hexpired⟩ := hremoved
  obtain ⟨year, month, day, htoday, hdate, hnumber⟩ := exists_todayName hyear hyear'
  unfold DailyLogWriter.expired at hexpired
  split at hexpired
  . next hdaily =>
    rw [decide_eq_true_eq] at hexpired
    refine ⟨hregular, hextension, .inl ?_, ?_⟩
    . obtain ⟨year', month', day', hname⟩ := exists_of_isDailyLogName hdaily
      exact ⟨year', month', day', hname, hname.expired hpos hle hyear hyear' hexpired⟩
    . intro hname
      rw [← hname] at htoday
      obtain ⟨year', month', day', hdate', hnumber', hlt⟩ := htoday.expired hpos hle hyear hyear' hexpired
      have hless := Calendar.dayNumber_lt hdate hdate' hlt
      omega
  . next hdaily =>
    refine ⟨hregular, hextension, .inr ⟨?_, olderThan_sound hpos hle hexpired⟩, ?_⟩
    . intro year' month' day' hname
      exact hdaily hname.isDailyLogName
    . intro hname
      rw [hname] at hdaily
      exact hdaily htoday.isDailyLogName

def oldestEntry : LogEntry where
  name := [97, 46, 108, 111, 103]
  regular := true
  lastWrite := some 0
  clock := 9223372036854775807
  lastWrite_ge modified h := by
    rw [← Option.some.inj h]
    decide
  lastWrite_lt modified h := by
    rw [← Option.some.inj h]
    decide
  clock_nonneg := by decide

theorem Expired.of_other (hname : isDailyLogName entry.name = false) (h : Expired host retentionDays now entry)
    : ∃ modified, entry.lastWrite = some modified ∧ retentionDays * 86400000000000 < entry.clock - modified := by
  rcases h with ⟨year, month, day, hdaily, _⟩ | ⟨_, hold⟩
  . rw [hdaily.isDailyLogName] at hname
    cases hname
  . exact hold

theorem ticks_hours_lt (hours : Int) : ticks (hours * 3600000000000) < 9223372036854775807 := by
  have hle := @Int.bmod_le (hours * 3600000000000) (2 ^ 64) (by omega)
  have hsplit := Int.bmod_eq_self_sub_mul_bdiv (hours * 3600000000000) (2 ^ 64)
  unfold ticks
  omega

theorem not_removesExpired (hlt : 106751 < retentionDays) : ¬RemovesExpired host retentionDays now := by
  intro h
  have hage : ticks 9223372036854775807 = 9223372036854775807 := ticks_of_small (by omega) (by omega)
  have hexpired : DailyLogWriter.expired host retentionDays now oldestEntry = true := by
    unfold DailyLogWriter.expired
    rw [if_neg (by decide)]
    unfold olderThan oldestEntry
    simp only [Int.sub_zero, hage, gt_iff_lt, decide_eq_true_eq]
    exact ticks_hours_lt _
  have hremoved : oldestEntry ∈ cleanup host retentionDays now [oldestEntry] := by
    apply List.mem_filter.mpr
    rw [hexpired]
    exact ⟨List.mem_singleton_self _, by decide⟩
  obtain ⟨modified, hmodified, hold⟩ := (h _ _ hremoved).2.2.1.of_other (by decide)
  rw [← Option.some.inj hmodified] at hold
  change retentionDays * 86400000000000 < 9223372036854775807 - 0 at hold
  omega

/--
The retention gives up what it should up to 292 years, and for no longer time.
-/
theorem removesExpired_iff (hpos : 1 ≤ retentionDays) (hyear : 1970 ≤ host.localYear now)
    (hyear' : host.localYear now ≤ 9999) : RemovesExpired host retentionDays now ↔ retentionDays ≤ 106751 := by
  constructor
  . intro h
    by_contra hlt
    exact not_removesExpired (by omega) h
  . intro hle
    exact removesExpired_of_le hpos hle hyear hyear'

theorem utcHost_offset_gt (_ : Int) : -604800 < (0 : Int) := by decide

def utcHost : LogHost where
  offset _ := 0
  offset_gt := utcHost_offset_gt
  failed _ := ⟨0, 0, 0, 0, 0, 0⟩
  mktime tm := Calendar.dayNumber (tm.tmYear + 1900) (tm.tmMon + 1) tm.tmMday * 86400 + tm.tmHour * 3600
    + tm.tmMin * 60 + tm.tmSec
  mktime_noon year month day _ _ _ _ _ := by
    unfold HostClock.localSeconds
    dsimp only
    rw [Int.sub_add_cancel, Int.sub_add_cancel, Int.fdiv_eq_ediv_of_nonneg _ (by decide)]
    omega

theorem removesExpired_iff_month : RemovesExpired utcHost 30 1790000000 ↔ (30 : Int) ≤ 106751 :=
  removesExpired_iff (by decide) (by decide) (by decide)

-- `server.log`, which has just been written.
def freshEntry : LogEntry where
  name := [115, 101, 114, 118, 101, 114, 46, 108, 111, 103]
  regular := true
  lastWrite := some 1790000000000000000
  clock := 1790000000000000000
  lastWrite_ge modified h := by
    rw [← Option.some.inj h]
    decide
  lastWrite_lt modified h := by
    rw [← Option.some.inj h]
    decide
  clock_nonneg := by decide

theorem cleanup_fresh : freshEntry ∈ cleanup utcHost 106752 1790000000 [freshEntry]
    ∧ ¬Expired utcHost 106752 1790000000 freshEntry := by
  constructor
  . exact List.mem_filter.mpr ⟨List.mem_singleton_self _, by decide +kernel⟩
  . intro h
    obtain ⟨modified, hmodified, hold⟩ := h.of_other (by decide)
    rw [← Option.some.inj hmodified] at hold
    exact absurd hold (by decide)

end Retention

end HikBridge.DailyLogWriter
