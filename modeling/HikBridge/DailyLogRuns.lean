import HikBridge.DailyLogWriter

/-!
This module contains the calls of `DailyLogWriter` over the whole life of the bridge: what the files of
the log directory hold after any sequence of writes.
-/

namespace HikBridge.DailyLogWriter

structure LogTimes where
  lastWrite : Option Int
  clock : Int
  lastWrite_ge : ∀ modified, lastWrite = some modified → -9223372036854775808 ≤ modified
  lastWrite_lt : ∀ modified, lastWrite = some modified → modified < 9223372036854775808
  clock_nonneg : 0 ≤ clock

structure LogFile where
  name : Bytes
  regular : Bool
  content : Bytes
  deriving DecidableEq, Repr

def LogFile.entry (file : LogFile) (times : Bytes → LogTimes) : LogEntry where
  name := file.name
  regular := file.regular
  lastWrite := (times file.name).lastWrite
  clock := (times file.name).clock
  lastWrite_ge := (times file.name).lastWrite_ge
  lastWrite_lt := (times file.name).lastWrite_lt
  clock_nonneg := (times file.name).clock_nonneg

/--
A call with the answers that it gets: the files in `kept` are those that a clean-up fails to remove, and
`taken` says how much of the line the file takes, if it can be opened.
-/
structure LogCall where
  line : Bytes
  now : Int
  times : Bytes → LogTimes
  kept : List Bytes := []
  taken : Option Nat

structure LogState where
  lastCleanupDate : Bytes
  files : List LogFile

section Source

variable (host : LogHost) (retentionDays : Int)

def isRemoved (now : Int) (times : Bytes → LogTimes) (kept : List Bytes) (file : LogFile) : Bool :=
  !kept.contains file.name && !(cleanup host retentionDays now [file.entry times]).isEmpty

def removeExpired (now : Int) (times : Bytes → LogTimes) (kept : List Bytes) (files : List LogFile)
    : List LogFile :=
  files.filter fun file => !isRemoved host retentionDays now times kept file

-- `std::ios::app`
def append (name text : Bytes) (files : List LogFile) : List LogFile :=
  if files.any fun file => file.name = name then
    files.map fun file => if file.name = name then { file with content := file.content ++ text } else file
  else
    files ++ [⟨name, true, text⟩]

def logName (now : Int) : Bytes := dayKey host now ++ [46, 108, 111, 103]

def clean (s : LogState) (call : LogCall) : LogState :=
  if dayKey host call.now ≠ s.lastCleanupDate then
    ⟨dayKey host call.now, removeExpired host retentionDays call.now call.times call.kept s.files⟩
  else
    s

def LogCall.text (call : LogCall) : Bytes := (call.line ++ [10]).take (call.taken.getD 0)

def write (s : LogState) (call : LogCall) : LogState :=
  let s := clean host retentionDays s call
  match call.taken with
  | none => s
  | some _ => { s with files := append (logName host call.now) call.text s.files }

def retention (retentionDays : Int) : Int := if retentionDays < 1 then 30 else retentionDays

def create (begin : Int) (times : Bytes → LogTimes) (kept : List Bytes) (files : List LogFile)
    : LogState :=
  ⟨dayKey host begin, removeExpired host (retention retentionDays) begin times kept files⟩

def writeAll (s : LogState) (calls : List LogCall) : LogState :=
  calls.foldl (write host (retention retentionDays)) s

end Source

def contentOf (name : Bytes) (files : List LogFile) : Bytes :=
  ((files.find? fun file => file.name = name).map LogFile.content).getD []

def textsOf (host : LogHost) (day : Int) (calls : List LogCall) : Bytes :=
  calls.flatMap fun call => if today host call.now = day then call.text else []

section Files

variable {name text other : Bytes} {files : List LogFile}

theorem contentOf_cons (file : LogFile)
    : contentOf name (file :: files) = if file.name = name then file.content else contentOf name files := by
  unfold contentOf
  rw [List.find?_cons]
  by_cases h : file.name = name
  . simp [h]
  . simp [h]

theorem contentOf_filter {p : LogFile → Bool} (h : ∀ file ∈ files, file.name = name → p file = true)
    : contentOf name (files.filter p) = contentOf name files := by
  induction files with
  | nil => rfl
  | cons file files ih =>
    specialize ih fun other hother => h other (by simp [hother])
    rw [List.filter_cons, contentOf_cons]
    split
    . rw [contentOf_cons, ih]
    . next hp =>
      have hne : file.name ≠ name := fun heq => hp (h file (by simp) heq)
      rw [ih, if_neg hne]

theorem contentOf_of_absent (h : ∀ file ∈ files, file.name ≠ name) : contentOf name files = [] := by
  have hfind : files.find? (fun file => file.name = name) = none := by
    simpa [List.find?_eq_none] using h
  rw [contentOf, hfind]
  rfl

theorem contentOf_map (hne : other ≠ name)
    : contentOf name (files.map fun file =>
        if file.name = other then { file with content := file.content ++ text } else file)
        = contentOf name files := by
  induction files with
  | nil => rfl
  | cons file files ih =>
    rw [List.map_cons, contentOf_cons, contentOf_cons, ih]
    by_cases h : file.name = other
    . rw [if_pos h, if_neg (h ▸ hne), if_neg (h ▸ hne)]
    . rw [if_neg h]

theorem contentOf_map_self (h : files.any fun file => file.name = name)
    : contentOf name (files.map fun file =>
        if file.name = name then { file with content := file.content ++ text } else file)
        = contentOf name files ++ text := by
  induction files with
  | nil => cases h
  | cons file files ih =>
    rw [List.map_cons, contentOf_cons, contentOf_cons]
    by_cases hname : file.name = name
    . simp [hname]
    . rw [if_neg hname, if_neg hname, if_neg hname]
      exact ih (by simpa [hname] using h)

theorem contentOf_append
    : contentOf name (append other text files)
        = contentOf name files ++ if other = name then text else [] := by
  unfold append
  split
  . next hany =>
    by_cases heq : other = name
    . rw [heq] at hany ⊢
      rw [contentOf_map_self hany, if_pos rfl]
    . rw [contentOf_map heq, if_neg heq, List.append_nil]
  . next hnone =>
    by_cases heq : other = name
    . have habsent : ∀ file ∈ files, file.name ≠ name := by
        intro file hfile hname
        exact hnone (List.any_eq_true.mpr ⟨file, hfile, by simp [hname, heq]⟩)
      rw [if_pos heq, contentOf_of_absent habsent, List.nil_append]
      unfold contentOf
      rw [List.find?_append, List.find?_eq_none.mpr (by simpa using habsent)]
      simp [heq]
    . unfold contentOf
      rw [List.find?_append]
      simp [heq]

end Files

section Runs

variable {host : LogHost} {retentionDays begin instant : Int} {times : Bytes → LogTimes}
  {kept : List Bytes} {files : List LogFile} {calls : List LogCall}

def Shown (host : LogHost) (instant : Int) : Prop :=
  1970 ≤ host.localYear instant ∧ host.localYear instant ≤ 9999

instance : Decidable (Shown host instant) := instDecidableAnd

theorem Shown.fourDigits (h : Shown host instant)
    : 1000 ≤ host.localYear instant ∧ host.localYear instant ≤ 9999 := by
  obtain ⟨hge, hle⟩ := h
  omega

theorem dayKey_mono {a b : Int} (ha : 1000 ≤ host.localYear a ∧ host.localYear a ≤ 9999)
    (hb : 1000 ≤ host.localYear b ∧ host.localYear b ≤ 9999)
    : (today host a < today host b → dayKey host a < dayKey host b)
        ∧ (today host a = today host b → dayKey host a = dayKey host b) := by
  obtain ⟨year, month, day, hkey, hdate, hnumber, hlocal, hmonth, hday⟩ := dayKey_eq ha.1 ha.2
  obtain ⟨year', month', day', hkey', hdate', hnumber', hlocal', hmonth', hday'⟩ := dayKey_eq hb.1 hb.2
  rw [hkey, hkey', ← hnumber, ← hnumber',
    dateText_lt_iff (by omega) (by omega) hmonth hmonth' hday hday']
  rcases lt_trichotomy [(year : Int), (month : Int), (day : Int)] [(year' : Int), month', day']
    with hless | heq | hless
  . have hnumbers := Calendar.dayNumber_lt hdate hdate' hless
    exact ⟨fun _ => hless, fun h => absurd h hnumbers.ne⟩
  . simp_all
  . have hnumbers := Calendar.dayNumber_lt hdate' hdate hless
    exact ⟨fun h => absurd h (by omega), fun h => absurd h hnumbers.ne'⟩

theorem logName_eq_iff {now : Int} (hnow : Shown host now) (hshown : Shown host instant)
    : logName host now = logName host instant ↔ today host now = today host instant := by
  obtain ⟨hlt, heq⟩ := dayKey_mono hnow.fourDigits hshown.fourDigits
  obtain ⟨hgt, -⟩ := dayKey_mono hshown.fourDigits hnow.fourDigits
  unfold logName
  rw [List.append_left_inj]
  refine ⟨fun hkeys => ?_, heq⟩
  rw [hkeys] at hlt hgt
  have hirrefl := List.lt_irrefl (dayKey host instant)
  by_contra hne
  rcases lt_or_gt_of_ne hne with hless | hless
  . exact hirrefl (hlt hless)
  . exact hirrefl (hgt hless)

theorem not_isRemoved {now : Int} {file : LogFile} (hpos : 1 ≤ retentionDays) (hle : retentionDays ≤ 106751)
    (hshown : Shown host instant) (hnow : Shown host now)
    (hrecent : today host now - retentionDays ≤ today host instant) (hname : file.name = logName host instant)
    : isRemoved host retentionDays now times kept file = false := by
  by_contra hremoved
  rw [Bool.not_eq_false, isRemoved, Bool.and_eq_true, Bool.not_eq_true', Bool.not_eq_true',
    List.isEmpty_eq_false_iff_exists_mem] at hremoved
  obtain ⟨-, entry, hentry⟩ := hremoved
  obtain ⟨hmem, hexpired⟩ := List.mem_filter.mp hentry
  obtain ⟨year, month, day, hday, hdate, hnumber⟩ := exists_todayName hshown.1 hshown.2
  rw [List.mem_singleton.mp hmem, Bool.and_eq_true] at hexpired
  have hlt := hexpired.2
  rw [expired, show (file.entry times).name = file.name from rfl, hname] at hlt
  unfold logName at hlt
  rw [if_pos hday.isDailyLogName, decide_eq_true_eq] at hlt
  obtain ⟨year', month', day', hdate', hnumber', hless⟩ := hday.expired hpos hle hnow.1 hnow.2 hlt
  have hbefore := Calendar.dayNumber_lt hdate hdate' hless
  omega

theorem one_le_retention : 1 ≤ retention retentionDays := by
  unfold retention
  split <;> omega

theorem retention_le (hle : retentionDays ≤ 106751) : retention retentionDays ≤ 106751 := by
  unfold retention
  split <;> omega

theorem contentOf_removeExpired {now : Int} (hpos : 1 ≤ retentionDays) (hle : retentionDays ≤ 106751)
    (hshown : Shown host instant) (hnow : Shown host now)
    (hrecent : today host now - retentionDays ≤ today host instant)
    : contentOf (logName host instant) (removeExpired host retentionDays now times kept files)
        = contentOf (logName host instant) files := by
  apply contentOf_filter
  intro file _ hname
  rw [not_isRemoved hpos hle hshown hnow hrecent hname, Bool.not_false]

theorem contentOf_write {s : LogState} {call : LogCall} (hpos : 1 ≤ retentionDays)
    (hle : retentionDays ≤ 106751) (hshown : Shown host instant) (hnow : Shown host call.now)
    (hrecent : today host call.now - retentionDays ≤ today host instant)
    : contentOf (logName host instant) (write host retentionDays s call).files
        = contentOf (logName host instant) s.files
          ++ if today host call.now = today host instant then call.text else [] := by
  have hclean : contentOf (logName host instant) (clean host retentionDays s call).files
      = contentOf (logName host instant) s.files := by
    unfold clean
    split
    . exact contentOf_removeExpired hpos hle hshown hnow hrecent
    . rfl
  unfold write
  cases htaken : call.taken with
  | none => simp [hclean, LogCall.text, htaken]
  | some taken => simp only [contentOf_append, hclean, logName_eq_iff hnow hshown]

/--
Every line of a day stands in the file of that day, in the order of the calls, after what the file had,
as long as the retention has not passed.
-/
theorem content_of_calls (hle : retentionDays ≤ 106751) (hshown : Shown host instant)
    (hcreated : Shown host begin ∧ today host begin - retention retentionDays ≤ today host instant)
    (hcalls : ∀ call ∈ calls, Shown host call.now
      ∧ today host call.now - retention retentionDays ≤ today host instant)
    : contentOf (logName host instant)
        (writeAll host retentionDays (create host retentionDays begin times kept files) calls).files
        = contentOf (logName host instant) files ++ textsOf host (today host instant) calls := by
  have hrun : ∀ s : LogState, contentOf (logName host instant) (writeAll host retentionDays s calls).files
      = contentOf (logName host instant) s.files ++ textsOf host (today host instant) calls := by
    induction calls with
    | nil =>
      intro s
      exact (List.append_nil _).symm
    | cons call calls ih =>
      intro s
      obtain ⟨hnow, hrecent⟩ := hcalls call (by simp)
      specialize ih (fun other hother => hcalls other (by simp [hother]))
        (write host (retention retentionDays) s call)
      rw [writeAll, List.foldl_cons, ← writeAll, ih,
        contentOf_write one_le_retention (retention_le hle) hshown hnow hrecent, List.append_assoc]
      rfl
  rw [hrun, create, contentOf_removeExpired one_le_retention (retention_le hle) hshown hcreated.1 hcreated.2]

theorem extension_logName (hshown : Shown host instant)
    : extension (logName host instant) = [46, 108, 111, 103] := by
  obtain ⟨year, month, day, hday, -, -⟩ := exists_todayName hshown.1 hshown.2
  have hlength : (logName host instant).length = 14 := by
    unfold logName
    rw [hday.name_eq, List.length_append, length_dateText]
    rfl
  have hending : ((logName host instant).reverse.takeWhile fun c => c ≠ 46) = [103, 111, 108] := by
    simp [logName]
  unfold extension
  rw [hending, if_neg]
  . rfl
  . rintro (h | h | h)
    . simp [h] at hlength
    . simp [h] at hlength
    . simp [hlength] at h

theorem isRemoved_of_old {now : Int} {file : LogFile} (hpos : 1 ≤ retentionDays)
    (hle : retentionDays ≤ 106751) (hshown : Shown host instant) (hnow : Shown host now)
    (hold : today host instant < today host now - retentionDays) (hregular : file.regular)
    (hname : file.name = logName host instant)
    : isRemoved host retentionDays now times [] file = true := by
  have hfits : Signed.Fits retentionDays := by
    unfold Signed.Fits
    omega
  have hcutoff := today_cutoffTime hpos hnow.1 hnow.2 hfits
  have hyears := localYear_cutoffTime hpos hnow.1 hnow.2 hle
  have hless := (dayKey_mono hshown.fourDigits hyears).1 (by omega)
  obtain ⟨year, month, day, hday, -, -⟩ := exists_todayName hshown.1 hshown.2
  have htake : (logName host instant).take 10 = dayKey host instant := by
    have hkey : (dayKey host instant).length = 10 := by
      have hlength := congrArg List.length hday.name_eq
      rw [List.length_append, List.length_append, length_dateText] at hlength
      omega
    unfold logName
    rw [List.take_left' hkey]
  have hexpired : expired host retentionDays now (file.entry times) = true := by
    rw [expired, show (file.entry times).name = file.name from rfl, hname, htake]
    unfold logName
    rw [if_pos hday.isDailyLogName, decide_eq_true hless]
  have hclean : cleanup host retentionDays now [file.entry times] = [file.entry times] := by
    rw [cleanup, List.filter_cons_of_pos]
    . rfl
    . rw [hexpired, show (file.entry times).name = file.name from rfl, hname, extension_logName hshown,
        show (file.entry times).regular = file.regular from rfl, hregular]
      rfl
  rw [isRemoved, hclean]
  rfl

structure Cleaned (host : LogHost) (retentionDays now : Int) (s : LogState) : Prop where
  date : s.lastCleanupDate = dayKey host now
  recent : ∀ file ∈ s.files, file.regular → ∀ instant, Shown host instant →
    today host instant < today host now - retentionDays → file.name ≠ logName host instant

theorem cleaned_removeExpired {now : Int} (hpos : 1 ≤ retentionDays) (hle : retentionDays ≤ 106751)
    (hnow : Shown host now)
    : Cleaned host retentionDays now
        ⟨dayKey host now, removeExpired host retentionDays now times [] files⟩ := by
  refine ⟨rfl, ?_⟩
  intro file hfile hregular instant hshown hold hname
  obtain ⟨-, hstays⟩ := List.mem_filter.mp hfile
  rw [isRemoved_of_old hpos hle hshown hnow hold hregular hname] at hstays
  cases hstays

theorem Cleaned.congr {s : LogState} {now prev : Int} (h : Cleaned host retentionDays prev s)
    (hprev : Shown host prev) (hnow : Shown host now) (hsame : dayKey host now = s.lastCleanupDate)
    : Cleaned host retentionDays now s := by
  have htoday : today host now = today host prev := by
    rw [← logName_eq_iff hnow hprev, logName, logName, hsame, h.date]
  refine ⟨hsame.symm, ?_⟩
  rw [htoday]
  exact h.recent

theorem Cleaned.append {s : LogState} {now : Int} {text : Bytes} (h : Cleaned host retentionDays now s)
    (hpos : 1 ≤ retentionDays) (hnow : Shown host now)
    : Cleaned host retentionDays now { s with files := DailyLogWriter.append (logName host now) text s.files } := by
  refine ⟨h.date, ?_⟩
  intro file hfile hregular instant hshown hold hname
  unfold DailyLogWriter.append at hfile
  split at hfile
  . obtain ⟨before, hbefore, rfl⟩ := List.mem_map.mp hfile
    have hsame : (if before.name = logName host now then
        { before with content := before.content ++ text } else before).regular = before.regular
        ∧ (if before.name = logName host now then
        { before with content := before.content ++ text } else before).name = before.name := by
      split <;> exact ⟨rfl, rfl⟩
    rw [hsame.1] at hregular
    rw [hsame.2] at hname
    exact h.recent before hbefore hregular instant hshown hold hname
  . rcases List.mem_append.mp hfile with hfile | hfile
    . exact h.recent file hfile hregular instant hshown hold hname
    . rw [List.mem_singleton.mp hfile, logName_eq_iff hnow hshown] at hname
      omega

theorem Cleaned.write {s : LogState} {prev : Int} {call : LogCall} (h : Cleaned host retentionDays prev s)
    (hpos : 1 ≤ retentionDays) (hle : retentionDays ≤ 106751) (hprev : Shown host prev)
    (hnow : Shown host call.now) (hkept : call.kept = [])
    : Cleaned host retentionDays call.now (write host retentionDays s call) := by
  have hclean : Cleaned host retentionDays call.now (clean host retentionDays s call) := by
    unfold clean
    split
    . rw [hkept]
      exact cleaned_removeExpired hpos hle hnow
    . next hsame => exact h.congr hprev hnow (not_not.mp hsame)
  unfold DailyLogWriter.write
  cases call.taken with
  | none => exact hclean
  | some _ => exact hclean.append hpos hnow

def lastNow (begin : Int) (calls : List LogCall) : Int := calls.foldl (fun _ call => call.now) begin

/--
Where every removal succeeds, no log of a day before the retention is left after a call, however long the
bridge has been running.
-/
theorem cleaned_of_calls (hle : retentionDays ≤ 106751) (hbegin : Shown host begin)
    (hcalls : ∀ call ∈ calls, Shown host call.now ∧ call.kept = [])
    : Cleaned host (retention retentionDays) (lastNow begin calls)
        (writeAll host retentionDays (create host retentionDays begin times [] files) calls) := by
  have hrun : ∀ s prev, Shown host prev → Cleaned host (retention retentionDays) prev s →
      Cleaned host (retention retentionDays) (lastNow prev calls) (writeAll host retentionDays s calls) := by
    induction calls with
    | nil =>
      intro s prev _ h
      exact h
    | cons call calls ih =>
      intro s prev hprev h
      obtain ⟨hnow, hkept⟩ := hcalls call (by simp)
      exact ih (fun other hother => hcalls other (by simp [hother])) _ call.now hnow
        (h.write one_le_retention (retention_le hle) hprev hnow hkept)
  exact hrun _ begin hbegin (cleaned_removeExpired one_le_retention (retention_le hle) hbegin)

-- Two calls of one day and one of the next: the file of the day before the retention goes at the start.
def noTimes (_ : Bytes) : LogTimes := ⟨none, 0, by simp, by simp, le_rfl⟩

def sampleCalls : List LogCall :=
  [⟨Bytes.lit "one", 1790000000, noTimes, [], some 4⟩, ⟨Bytes.lit "two", 1790000001, noTimes, [], some 2⟩,
    ⟨Bytes.lit "three", 1790086400, noTimes, [], some 6⟩]

def sampleFiles : List LogFile :=
  [⟨Bytes.lit "2026-08-21.log", true, Bytes.lit "old\n"⟩, ⟨Bytes.lit "2026-09-21.log", true, Bytes.lit "zero\n"⟩]

theorem content_of_calls_sample
    : contentOf (logName utcHost 1790000000)
        (writeAll utcHost 30 (create utcHost 30 1790000000 noTimes [] sampleFiles) sampleCalls).files
        = Bytes.lit "zero\none\ntw" := by
  rw [content_of_calls (by decide) (by decide) (by decide) (by decide)]
  decide

theorem cleaned_of_calls_sample
    : Cleaned utcHost 30 1790086400
        (writeAll utcHost 30 (create utcHost 30 1790000000 noTimes [] sampleFiles) sampleCalls) :=
  @cleaned_of_calls utcHost 30 1790000000 noTimes sampleFiles sampleCalls (by decide) (by decide)
    (by decide)

end Runs

end HikBridge.DailyLogWriter
