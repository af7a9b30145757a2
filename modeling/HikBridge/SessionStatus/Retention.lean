import HikBridge.Lib.Machine
import HikBridge.SessionStatus.Calls

/-!
This module contains how long the status registry keeps the record of a session. `cleanup_locked`
looks at the last update of a record, and a session that streams does not update its own.
-/

namespace HikBridge

namespace StatusCall

-- The session for which the call is made.
def target (call : StatusCall) : Option Bytes :=
  match call with
  | .none | .cleanup _ => Option.none
  | .setActive sid _ | .setOutputReady sid _ | .setBrowserFirstFrame sid _ _
  | .setEnded sid _ _ _ _ _ => some sid

def readings (call : StatusCall) : List Int :=
  match call with
  | .none => []
  | .cleanup now => [now]
  | .setActive _ reads => [reads.cleanup, reads.updated, reads.started]
  | .setOutputReady _ reads | .setBrowserFirstFrame _ _ reads => [reads.updated]
  | .setEnded _ _ _ _ _ reads => [reads.cleanup, reads.updated]

-- The registry after the call of `cleanup_locked`, if there is one.
def cleaned (statuses : SessionStatusRegistry) (call : StatusCall) : SessionStatusRegistry :=
  match call.cleanupTime with
  | Option.none => statuses
  | some now => statuses.cleanupLocked now

theorem apply_items_ne {call : StatusCall} {statuses : SessionStatusRegistry} {sid : Bytes}
    (h : call.target ≠ some sid)
    : (call.apply statuses).items sid = (call.cleaned statuses).items sid := by
  cases call with
  | none => rfl
  | cleanup now => rfl
  | setActive key reads =>
    apply statuses.setActive_items_ne
    rintro rfl
    contradiction
  | setOutputReady key reads =>
    apply statuses.setOutputReady_items_ne
    rintro rfl
    contradiction
  | setBrowserFirstFrame key elapsed reads =>
    apply statuses.setBrowserFirstFrame_items_ne
    rintro rfl
    contradiction
  | setEnded key reason current peak backpressure reads =>
    apply statuses.setEnded_items_ne
    rintro rfl
    contradiction

end StatusCall

-- The clock readings that the calls for one session have left.
structure Watch where
  started : Int
  refreshed : Int
  ended : Option Int := none
  deriving DecidableEq, Repr

namespace Watch

-- Ten minutes from here the record may go.
def since (w : Watch) : Int := w.ended.getD w.refreshed

def after (w : Watch) (call : StatusCall) : Watch :=
  match call with
  | .setOutputReady _ reads | .setBrowserFirstFrame _ _ reads => { w with refreshed := reads.updated }
  | .setEnded _ _ _ _ _ reads => { w with ended := some (w.ended.getD reads.updated) }
  | _ => w

end Watch

/--
The registry with the last reading of the steady clock and the sessions that were ever registered.
-/
structure StatusLog where
  clock : Int
  statuses : SessionStatusRegistry
  watch : Bytes → Option Watch

namespace StatusLog

def start (clock : Int) : StatusLog := ⟨clock, .empty, fun _ => none⟩

def watchAfter (s : StatusLog) (call : StatusCall) : Bytes → Option Watch :=
  match call with
  | .setActive sid reads =>
    Function.update s.watch sid (some { started := reads.started, refreshed := reads.updated })
  | _ => fun sid => if call.target = some sid then (s.watch sid).map (·.after call) else s.watch sid

-- No two sessions are registered under one sid.
def distinct (s : StatusLog) (call : StatusCall) : Bool :=
  match call with
  | .setActive sid _ => (s.watch sid).isNone
  | _ => true

def advance (s : StatusLog) (call : StatusCall) : StatusLog :=
  { clock := (call.readings.getLast?).getD s.clock
    statuses := call.apply s.statuses
    watch := s.watchAfter call }

def step (s : StatusLog) (call : StatusCall) : Option StatusLog :=
  if (s.clock :: call.readings).Pairwise (· ≤ ·) ∧ s.distinct call then some (s.advance call) else none

/--
No call cleans up later than ten minutes after the last update of a session that has not ended.
-/
def InTime (s : StatusLog) (call : StatusCall) : Prop :=
  ∀ now, call.cleanupTime = some now → ∀ sid w, s.watch sid = some w → w.ended = none →
    now ≤ w.refreshed + SessionStatusRegistry.retention

end StatusLog

namespace Watch

open SessionStatusRegistry (retention)

variable {w : Watch} {value : SessionStatus} {statuses : SessionStatusRegistry} {sid : Bytes}

structure Describes (w : Watch) (value : SessionStatus) : Prop where
  started : value.started = w.started
  updated : w.since ≤ value.updated
  live : w.ended = none → value.endReason ≠ "manual_cleanup"

-- The record of the session, as `w` describes it.
def Recorded (w : Watch) (statuses : SessionStatusRegistry) (sid : Bytes) : Prop :=
  ∃ value, statuses.items sid = some value ∧ w.Describes value

theorem Recorded.cleanupLocked {now : Int} (h : w.Recorded statuses sid)
    (hnow : now ≤ w.since + retention) : w.Recorded (statuses.cleanupLocked now) sid := by
  obtain ⟨value, hitem, hvalue⟩ := h
  refine ⟨value, ?_, hvalue⟩
  have hexpired : SessionStatusRegistry.expired now value = false := by
    have := hvalue.updated
    simp only [SessionStatusRegistry.expired, decide_eq_false_iff_not]
    omega
  simp [SessionStatusRegistry.cleanupLocked_items, hitem, hexpired]

theorem Recorded.cleaned {call : StatusCall} (h : w.Recorded statuses sid)
    (hnow : ∀ now, call.cleanupTime = some now → now ≤ w.since + retention)
    : w.Recorded (call.cleaned statuses) sid := by
  unfold StatusCall.cleaned
  split
  . exact h
  . next now heq => exact h.cleanupLocked (hnow now heq)

theorem recorded_setActive {reads : Reads}
    : Recorded { started := reads.started, refreshed := reads.updated }
        (statuses.setActive sid reads) sid := by
  refine ⟨_, statuses.setActive_items_self, rfl, ?_, ?_⟩
  . exact Int.le_refl _
  . intro _
    simp [SessionStatusRegistry.defaultStatus]

theorem since_after_refreshed {call : StatusCall} {now : Int} (h : w.since ≤ now)
    (hcall : (w.after call).refreshed = now) (hended : (w.after call).ended = w.ended)
    : (w.after call).since ≤ now := by
  unfold since at h ⊢
  rw [hcall, hended]
  cases hw : w.ended with
  | none => simp
  | some u =>
    rw [hw] at h
    exact h

theorem Recorded.setOutputReady {reads : Reads} (h : w.Recorded statuses sid)
    (hsince : w.since ≤ reads.updated)
    : (w.after (.setOutputReady sid reads)).Recorded (statuses.setOutputReady sid reads) sid := by
  obtain ⟨value, hitem, hvalue⟩ := h
  unfold SessionStatusRegistry.setOutputReady
  rw [hitem]
  exact ⟨_, SessionStatusRegistry.insert_items_self _ _, hvalue.started,
    since_after_refreshed hsince rfl rfl, hvalue.live⟩

theorem Recorded.setBrowserFirstFrame {reads : Reads} {elapsed : Int} (h : w.Recorded statuses sid)
    (hsince : w.since ≤ reads.updated)
    : (w.after (.setBrowserFirstFrame sid elapsed reads)).Recorded
        (statuses.setBrowserFirstFrame sid elapsed reads).2 sid := by
  obtain ⟨value, hitem, hvalue⟩ := h
  unfold SessionStatusRegistry.setBrowserFirstFrame
  rw [hitem]
  exact ⟨_, SessionStatusRegistry.insert_items_self _ _, hvalue.started,
    since_after_refreshed hsince rfl rfl, hvalue.live⟩

theorem Recorded.setEnded {reason : StreamEndReason} {message : String}
    {current peak backpressure : Nat} {reads : Reads}
    (h : w.Recorded (statuses.cleanupLocked reads.cleanup) sid) (hsince : w.since ≤ reads.updated)
    : (w.after (.setEnded sid reason current peak backpressure reads)).Recorded
        (statuses.setEnded sid reason message current peak backpressure reads) sid := by
  obtain ⟨value, hitem, hvalue⟩ := h
  unfold SessionStatusRegistry.setEnded
  dsimp only
  rw [hitem, Option.getD_some]
  cases hended : w.ended with
  | none =>
    rw [if_neg (hvalue.live hended)]
    refine ⟨_, SessionStatusRegistry.insert_items_self _ _, hvalue.started, ?_, ?_⟩
    . simp [since, after, hended]
    . simp [after]
  | some u =>
    have hu : (w.after (.setEnded sid reason current peak backpressure reads)).since = w.since := by
      simp [since, after, hended]
    split
    . refine ⟨value, hitem, hvalue.started, ?_, by simp [after]⟩
      rw [hu]
      exact hvalue.updated
    . refine ⟨_, SessionStatusRegistry.insert_items_self _ _, hvalue.started, ?_, by simp [after]⟩
      rw [hu]
      exact hsince

end Watch

namespace StatusLog

open SessionStatusRegistry (retention)

variable {s s' : StatusLog} {call : StatusCall} {sid : Bytes} {w : Watch}

def Retained (s : StatusLog) : Prop :=
  ∀ sid w, s.watch sid = some w → w.since ≤ s.clock ∧
    ((∀ u, w.ended = some u → s.clock ≤ u + retention) → w.Recorded s.statuses sid)

theorem readings_le (h : (s.clock :: call.readings).Pairwise (· ≤ ·))
    : s.clock ≤ (s.advance call).clock ∧
        ∀ now ∈ call.readings, s.clock ≤ now ∧ now ≤ (s.advance call).clock := by
  unfold advance
  cases call with
  | none => simp [StatusCall.readings]
  | _ =>
    simp [StatusCall.readings] at h ⊢
    omega

theorem cleanupTime_mem {now : Int} (h : call.cleanupTime = some now) : now ∈ call.readings := by
  cases call with
  | none => cases h
  | setOutputReady _ _ => cases h
  | setBrowserFirstFrame _ _ _ => cases h
  | _ =>
    injection h with h
    simp [StatusCall.readings, h]

theorem watch_advance_ne (h : call.target ≠ some sid) : (s.advance call).watch sid = s.watch sid := by
  cases call with
  | setActive key reads =>
    have hkey : sid ≠ key := by
      rintro rfl
      contradiction
    simp [advance, watchAfter, hkey]
  | _ => simp [advance, watchAfter, h]

theorem retained_start (clock : Int) : (start clock).Retained := by
  intro sid w hwatch
  contradiction

theorem Retained.cleaned (h : s.Retained) (htime : s.InTime call) (hwatch : s.watch sid = some w)
    (horder : (s.clock :: call.readings).Pairwise (· ≤ ·))
    (hended : ∀ u, w.ended = some u → (s.advance call).clock ≤ u + retention)
    : w.Recorded (call.cleaned s.statuses) sid := by
  have hreadings := readings_le horder
  apply ((h sid w hwatch).2 _).cleaned
  . intro now hnow
    have := (hreadings.2 now (cleanupTime_mem hnow)).2
    unfold Watch.since
    cases hw : w.ended with
    | none => exact htime now hnow sid w hwatch hw
    | some u =>
      have := hended u hw
      rw [Option.getD_some]
      omega
  . intro u hu
    have := hended u hu
    omega

theorem since_after (h : w.since ≤ s.clock) (horder : (s.clock :: call.readings).Pairwise (· ≤ ·))
    : (w.after call).since ≤ (s.advance call).clock := by
  have hreadings := readings_le horder
  unfold Watch.since at h ⊢
  unfold Watch.after
  cases hw : w.ended with
  | none =>
    rw [hw, Option.getD_none] at h
    split
    . simp only [Option.getD_none]
      exact (hreadings.2 _ List.mem_cons_self).2
    . simp only [Option.getD_none]
      exact (hreadings.2 _ List.mem_cons_self).2
    . exact (hreadings.2 _ (List.mem_cons_of_mem _ List.mem_cons_self)).2
    . rw [hw, Option.getD_none]
      omega
  | some u =>
    rw [hw, Option.getD_some] at h
    split
    all_goals
      simp only [hw, Option.getD_some]
      omega

theorem Retained.other (h : s.Retained) (htime : s.InTime call) (htarget : call.target ≠ some sid)
    (hwatch : s.watch sid = some w) (horder : (s.clock :: call.readings).Pairwise (· ≤ ·))
    (hended : ∀ u, w.ended = some u → (s.advance call).clock ≤ u + retention)
    : w.Recorded (call.apply s.statuses) sid := by
  obtain ⟨value, hitem, hvalue⟩ := h.cleaned htime hwatch horder hended
  exact ⟨value, by rw [← hitem]; exact StatusCall.apply_items_ne htarget, hvalue⟩

theorem Retained.own (h : s.Retained) (htime : s.InTime call) (htarget : call.target = some sid)
    (hactive : ∀ reads, call ≠ .setActive sid reads)
    (hwatch : s.watch sid = some w) (horder : (s.clock :: call.readings).Pairwise (· ≤ ·))
    (hended : ∀ u, (w.after call).ended = some u → (s.advance call).clock ≤ u + retention)
    : (w.after call).Recorded (call.apply s.statuses) sid := by
  have hsince := (h sid w hwatch).1
  have hreadings := readings_le horder
  have hcleaned : (∀ u, w.ended = some u → (w.after call).ended = some u) →
      w.Recorded (call.cleaned s.statuses) sid :=
    fun hkept => h.cleaned htime hwatch horder fun u hu => hended u (hkept u hu)
  cases call with
  | none => cases htarget
  | cleanup now => cases htarget
  | setActive key reads =>
    injection htarget with hkey
    rw [hkey] at hactive
    exact absurd rfl (hactive reads)
  | setOutputReady key reads =>
    injection htarget with hkey
    rw [hkey] at hcleaned hreadings ⊢
    apply (hcleaned fun _ hu => hu).setOutputReady
    exact hsince.trans (hreadings.2 _ List.mem_cons_self).1
  | setBrowserFirstFrame key elapsed reads =>
    injection htarget with hkey
    rw [hkey] at hcleaned hreadings ⊢
    apply (hcleaned fun _ hu => hu).setBrowserFirstFrame
    exact hsince.trans (hreadings.2 _ List.mem_cons_self).1
  | setEnded key reason current peak backpressure reads =>
    injection htarget with hkey
    rw [hkey] at hcleaned hreadings ⊢
    apply (hcleaned _).setEnded
    . exact hsince.trans (hreadings.2 _ (List.mem_cons_of_mem _ List.mem_cons_self)).1
    . intro u hu
      simp [Watch.after, hu]

theorem watch_advance_self (htarget : call.target = some sid)
    (hactive : ∀ reads, call ≠ .setActive sid reads)
    : (s.advance call).watch sid = (s.watch sid).map (·.after call) := by
  cases call with
  | setActive key reads =>
    injection htarget with hkey
    rw [hkey] at hactive
    exact absurd rfl (hactive reads)
  | _ => simp [advance, watchAfter, htarget]

theorem retained_step (h : s.Retained) (htime : s.InTime call) (hstep : s.step call = some s')
    : s'.Retained := by
  unfold step at hstep
  split at hstep
  . next hguard =>
    have horder := hguard.1
    injection hstep with hstep
    subst hstep
    intro sid w' hwatch'
    by_cases htarget : call.target = some sid
    . by_cases hactive : ∃ reads, call = .setActive sid reads
      . obtain ⟨reads, hcall⟩ := hactive
        subst hcall
        simp only [advance, watchAfter, Function.update_self, Option.some.injEq] at hwatch'
        subst hwatch'
        refine ⟨?_, fun _ => Watch.recorded_setActive⟩
        exact ((readings_le horder).2 _ (List.mem_cons_of_mem _ List.mem_cons_self)).2
      . have hactive : ∀ reads, call ≠ .setActive sid reads :=
          fun reads hcall => hactive ⟨reads, hcall⟩
        rw [watch_advance_self htarget hactive] at hwatch'
        obtain ⟨w, hwatch, hw⟩ := Option.map_eq_some_iff.mp hwatch'
        subst hw
        exact ⟨since_after (h sid w hwatch).1 horder, h.own htime htarget hactive hwatch horder⟩
    . rw [watch_advance_ne htarget] at hwatch'
      refine ⟨?_, h.other htime htarget hwatch' horder⟩
      exact (h sid w' hwatch').1.trans (readings_le horder).1
  . contradiction

/--
Where no clean-up comes later than ten minutes after the last update of a live session, `get` returns
the record of every session until ten minutes after its end, with the time it was started.
-/
theorem record_retained {clock : Int} {calls : List StatusCall}
    (hrun : Machine.run step (start clock) calls = some s)
    (hmeets : Machine.Meets step InTime (start clock) calls) (hwatch : s.watch sid = some w)
    {now : Int} (hclock : s.clock ≤ now) (htime : s.InTime (.cleanup now))
    (hended : ∀ u, w.ended = some u → now ≤ u + retention)
    : ∃ value, (s.statuses.get sid now).1 = some value ∧ value.started = w.started := by
  have hretained : s.Retained := Machine.run_invariant_of_meets
    (fun _ _ _ hs hcall hstep => retained_step hs hcall hstep) (retained_start clock) hmeets hrun
  have horder : (s.clock :: (StatusCall.cleanup now).readings).Pairwise (· ≤ ·) := by
    simpa [StatusCall.readings] using hclock
  obtain ⟨value, hitem, hvalue⟩ := hretained.cleaned htime hwatch horder hended
  exact ⟨value, hitem, hvalue.started⟩

-- One clock reading for a whole call, in nanoseconds.
def readsAt (now : Int) : Reads := { cleanup := now, updated := now, started := now, utc := 0 }

def minutes (n : Int) : Int := n * 60000000000

-- A session that shows its first frame after nine minutes, while another one starts later.
def watched : List StatusCall :=
  [.setActive [65] (readsAt 0), .setBrowserFirstFrame [65] 1000 (readsAt (minutes 9)),
    .setActive [66] (readsAt (minutes 15))]

theorem inTime_watched : Machine.Meets step InTime (start 0) watched := by
  refine ⟨?_, ?_⟩
  . intro now hnow sid w hwatch
    contradiction
  intro s hs
  cases hs
  refine ⟨?_, ?_⟩
  . intro now hnow
    contradiction
  intro s hs
  cases hs
  refine ⟨?_, fun _ _ => trivial⟩
  intro now hnow sid w hwatch hended
  cases hnow
  simp only [advance, watchAfter, start, StatusCall.target, Function.update_apply] at hwatch
  split at hwatch
  . next hsid =>
    simp only [← Option.some.inj hsid, if_pos] at hwatch
    cases hwatch
    decide
  . next hsid =>
    rw [if_neg (fun heq => hsid (by rw [heq]))] at hwatch
    contradiction

theorem record_retained_watched
    : ∃ s, Machine.run step (start 0) watched = some s ∧
        ∃ value, (s.statuses.get [65] (minutes 18)).1 = some value ∧ value.started = 0 := by
  have hrun : Machine.run step (start 0) watched = some (watched.foldl advance (start 0)) := rfl
  have hwatch : (watched.foldl advance (start 0)).watch [65]
      = some { started := 0, refreshed := minutes 9 } := rfl
  refine ⟨_, hrun, record_retained hrun inTime_watched hwatch ?_ ?_ ?_⟩
  . decide
  . intro now hnow sid w hwatch hended
    cases hnow
    by_cases hlater : sid = [66]
    . subst hlater
      cases hwatch
      decide
    by_cases hfirst : sid = [65]
    . subst hfirst
      cases hwatch
      decide
    . simp [watched, advance, watchAfter, start, StatusCall.target, hlater, hfirst, Ne.symm hfirst]
        at hwatch
  . intro u hu
    contradiction

/--
A session that streams for ten minutes has no record any more when another one starts.
-/
theorem record_retained_streaming
    : ∃ s, Machine.run step (start 0)
          [.setActive [65] (readsAt 0), .setActive [66] (readsAt (minutes 10 + 1))] = some s ∧
        s.watch [65] = some { started := 0, refreshed := 0, ended := none } ∧
        (s.statuses.get [65] s.clock).1 = none :=
  ⟨_, rfl, rfl, rfl⟩

end StatusLog
end HikBridge
