import HikBridge.Http.AcceptedRequests
import HikBridge.LocalTime

/-!
This module contains the times of a playback as the device is given them, and when the begin time is
before the end time.
-/

namespace HikBridge

open Calendar (IsDate dayNumber)

-- `NET_DVR_TIME`
structure NetDvrTime where
  dwYear : Int
  dwMonth : Int
  dwDay : Int
  dwHour : Int
  dwMinute : Int
  dwSecond : Int
  deriving DecidableEq, Repr

-- The conversion of an `int` to a `DWORD`
def dword (n : Int) : Int := n % 4294967296

/--
`unix_to_nvr_time`. The sum with 1900 has to fit an `int`.
-/
def unixToNvrTime (clock : HostClock) (seconds : Int) : NetDvrTime :=
  let value := clock.localTimeSafe seconds
  { dwYear := dword (value.tmYear + 1900)
    dwMonth := dword (value.tmMon + 1)
    dwDay := dword value.tmMday
    dwHour := dword value.tmHour
    dwMinute := dword value.tmMin
    dwSecond := dword value.tmSec }

namespace NetDvrTime

def fields (time : NetDvrTime) : List Int :=
  [time.dwYear, time.dwMonth, time.dwDay, time.dwHour, time.dwMinute, time.dwSecond]

structure Valid (time : NetDvrTime) : Prop where
  date : IsDate time.dwYear time.dwMonth time.dwDay
  hour : 0 ≤ time.dwHour ∧ time.dwHour < 24
  minute : 0 ≤ time.dwMinute ∧ time.dwMinute < 60
  second : 0 ≤ time.dwSecond ∧ time.dwSecond < 60

def seconds (time : NetDvrTime) : Int :=
  86400 * dayNumber time.dwYear time.dwMonth time.dwDay + 3600 * time.dwHour + 60 * time.dwMinute
    + time.dwSecond

variable {time time' : NetDvrTime}

theorem seconds_lt (h : time.Valid) (h' : time'.Valid) (hlt : time.fields < time'.fields)
    : time.seconds < time'.seconds := by
  have hour := h.hour
  have minute := h.minute
  have second := h.second
  have hour' := h'.hour
  have minute' := h'.minute
  have second' := h'.second
  have hdays : [time.dwYear, time.dwMonth, time.dwDay] < [time'.dwYear, time'.dwMonth, time'.dwDay]
      ∨ (time.dwYear = time'.dwYear ∧ time.dwMonth = time'.dwMonth ∧ time.dwDay = time'.dwDay)
        ∧ [time.dwHour, time.dwMinute, time.dwSecond] < [time'.dwHour, time'.dwMinute, time'.dwSecond] := by
    simp only [fields, List.cons_lt_cons_iff] at hlt ⊢
    grind
  unfold seconds
  rcases hdays with hdate | ⟨⟨hyear, hmonth, hday⟩, htime⟩
  . have hnumber := Calendar.dayNumber_lt h.date h'.date hdate
    omega
  . rw [hyear, hmonth, hday]
    simp only [List.cons_lt_cons_iff] at htime
    have hnil : ¬([] : List Int) < [] := List.lt_irrefl _
    simp only [hnil, and_false, or_false] at htime
    omega

theorem fields_lt_iff (h : time.Valid) (h' : time'.Valid)
    : time.fields < time'.fields ↔ time.seconds < time'.seconds := by
  constructor
  . exact seconds_lt h h'
  . intro hlt
    rcases lt_trichotomy time.fields time'.fields with hless | heq | hgreater
    . exact hless
    . have hsame : time = time' := by
        cases time
        cases time'
        simpa [fields] using heq
      rw [hsame] at hlt
      exact absurd hlt (Int.lt_irrefl _)
    . have hseconds := seconds_lt h' h hgreater
      omega

end NetDvrTime

section Window

variable {clock : HostClock} {instant : Int}

theorem dword_of_nonneg {n : Int} (hpos : 0 ≤ n) (hlt : n < 4294967296) : dword n = n := by
  unfold dword
  omega

theorem unixToNvrTime_spec (hpos : 0 ≤ instant) (hyear : clock.localYear instant ≤ 2147483647)
    : (unixToNvrTime clock instant).Valid
      ∧ (unixToNvrTime clock instant).seconds = clock.localSeconds instant
      ∧ (unixToNvrTime clock instant).dwYear = clock.localYear instant := by
  have hyearPos := clock.localYear_pos hpos
  have hcivil := civilFromDays_spec ((clock.localSeconds instant).fdiv 86400)
  unfold unixToNvrTime HostClock.localTimeSafe HostClock.localTime
  unfold HostClock.localYear at hyear hyearPos ⊢
  have hsplit := Int.mul_fdiv_add_fmod (clock.localSeconds instant) 86400
  have hnonneg : 0 ≤ (clock.localSeconds instant).fmod 86400 := Int.fmod_nonneg_of_pos _ (by decide)
  have hlt : (clock.localSeconds instant).fmod 86400 < 86400 := Int.fmod_lt_of_pos _ (by decide)
  generalize (clock.localSeconds instant).fmod 86400 = second at hsplit hnonneg hlt ⊢
  generalize (clock.localSeconds instant).fdiv 86400 = days at hcivil hyear hyearPos hsplit ⊢
  generalize civilFromDays days = date at hcivil hyear hyearPos ⊢
  rcases date with ⟨year, month, day⟩
  dsimp only at hcivil hyear hyearPos ⊢
  rcases hcivil with ⟨hdate, hnumber⟩
  have hmonthPos := hdate.month_pos
  have hmonthLe := hdate.month_le
  have hdayPos := hdate.day_pos
  have hdayLe := hdate.day_le
  have hlength := Calendar.daysInMonth_le year month
  have hfits : Signed.Fits (year - 1900) := by
    unfold Signed.Fits
    omega
  rw [if_pos hfits, Option.getD_some]
  dsimp only
  rw [Int.sub_add_cancel, Int.sub_add_cancel, dword_of_nonneg (by omega) (by omega),
    dword_of_nonneg (by omega) (by omega), dword_of_nonneg (by omega) (by omega),
    dword_of_nonneg (by omega) (by omega), dword_of_nonneg (by omega) (by omega),
    dword_of_nonneg (by omega) (by omega)]
  refine ⟨⟨hdate, by dsimp only; omega, by dsimp only; omega, by dsimp only; omega⟩, ?_, rfl⟩
  unfold NetDvrTime.seconds
  dsimp only
  rw [hnumber]
  omega

variable {point : UInt8} {query : Query} {config : Config} {request : VideoCodecCache.StreamRequest}

/--
The times of an accepted playback are what the local clock shows at its start and at its end, and they
are in order exactly if the clock shows more at the end.
-/
theorem playbackWindow_ordered_iff (clock : HostClock)
    (hok : parseStreamRequest point query config = .ok request) (hplayback : request.option = .Playback)
    (hstart : clock.localYear request.start ≤ 2147483647)
    (hstop : clock.localYear request.stop ≤ 2147483647)
    : let beginTime := unixToNvrTime clock request.start
      let endTime := unixToNvrTime clock request.stop
      (beginTime.Valid ∧ beginTime.dwYear = clock.localYear request.start
        ∧ beginTime.seconds = clock.localSeconds request.start)
      ∧ (endTime.Valid ∧ endTime.dwYear = clock.localYear request.stop
        ∧ endTime.seconds = clock.localSeconds request.stop)
      ∧ (beginTime.fields < endTime.fields
        ↔ clock.offset request.start - clock.offset request.stop < request.stop - request.start) := by
  have htimes := (parseStreamRequest_eq_ok_iff.mp hok).playback hplayback
  rcases htimes with ⟨-, -, hpos, hlt, -, -⟩
  rcases unixToNvrTime_spec hpos hstart with ⟨hbegin, hbeginSeconds, hbeginYear⟩
  rcases unixToNvrTime_spec (Int.le_of_lt (Int.lt_of_le_of_lt hpos hlt)) hstop with
    ⟨hend, hendSeconds, hendYear⟩
  refine ⟨⟨hbegin, hbeginYear, hbeginSeconds⟩, ⟨hend, hendYear, hendSeconds⟩, ?_⟩
  rw [NetDvrTime.fields_lt_iff hbegin hend, hbeginSeconds, hendSeconds, HostClock.localSeconds,
    HostClock.localSeconds]
  omega

-- A playback of one second, from the last second before 2026-10-25 01:00 UTC
def lastSecond : Query :=
  parseQuery (Bytes.lit "option=playback&ip=192.0.2.10&port=8000&username=admin&password=PASSWORD&camera=33&sid=vod-001&start=1792889999&end=1792890000")

def lastSecondRequest : VideoCodecCache.StreamRequest where
  option := .Playback
  ip := Bytes.lit "192.0.2.10"
  port := 8000
  username := Bytes.lit "admin"
  password := Bytes.lit "PASSWORD"
  camera := 33
  channelType := .Auto
  stream := .Main
  speed := 0x3FF0000000000000
  start := 1792889999
  stop := 1792890000
  sid := Bytes.lit "vod-001"
  generation := []

theorem parse_lastSecond : parseStreamRequest 46 lastSecond {} = .ok lastSecondRequest := by
  decide +kernel

def utc : HostClock where
  offset _ := 0
  offset_gt _ := by decide
  failed _ := ⟨0, 0, 0, 0, 0, 0⟩

theorem playbackWindow_ordered_utc
    : (unixToNvrTime utc lastSecondRequest.start).fields
        < (unixToNvrTime utc lastSecondRequest.stop).fields :=
  (playbackWindow_ordered_iff utc parse_lastSecond rfl (by decide +kernel) (by decide +kernel)).2.2.mpr
    (by decide)

/--
Central European time: at the end of summer the clock goes back by an hour.
-/
def centralEurope : HostClock where
  offset instant := if instant < 1792890000 then 7200 else 3600
  offset_gt instant := by
    split
    . decide
    . decide
  failed _ := ⟨0, 0, 0, 0, 0, 0⟩

/--
A playback across the change begins, for the device, after it ends.
-/
theorem playbackWindow_reversed
    : ¬∀ (clock : HostClock) (point : UInt8) (query : Query) (config : Config)
        (request : VideoCodecCache.StreamRequest),
        parseStreamRequest point query config = .ok request → request.option = .Playback
        → clock.localYear request.start ≤ 2147483647 → clock.localYear request.stop ≤ 2147483647
        → (unixToNvrTime clock request.start).fields < (unixToNvrTime clock request.stop).fields := by
  intro h
  have hlt := h centralEurope 46 lastSecond {} lastSecondRequest parse_lastSecond rfl
    (by decide +kernel) (by decide +kernel)
  have hnot : ¬(unixToNvrTime centralEurope lastSecondRequest.start).fields
      < (unixToNvrTime centralEurope lastSecondRequest.stop).fields := by
    decide +kernel
  exact hnot hlt

end Window

end HikBridge
