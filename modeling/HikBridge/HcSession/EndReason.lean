import HikBridge.HcSession.EndRace

/-!
This module maps the runs of an `HcSession` to the race for its end reason.
-/

namespace HikBridge

-- A callback whose packet was refused and that has not stored the overflow yet.
def CallbackPc.refusal (pc : CallbackPc) : Option Bool :=
  match pc with
  | .refused _ wasOpen | .overflowed _ wasOpen => some wasOpen
  | _ => none

def MonitorPc.completion (pc : MonitorPc) : Option StreamEndReason :=
  match pc with
  | .storing reason _ => some reason
  | _ => none

@[simp]
theorem MonitorPc.completion_completing (reason : StreamEndReason) (resume : Option Bool)
    : (MonitorPc.completing reason resume).completion = none := rfl

@[simp]
theorem MonitorPc.completion_storing (reason : StreamEndReason) (resume : Option Bool)
    : (MonitorPc.storing reason resume).completion = some reason := rfl

@[simp]
theorem MonitorPc.completion_closing (resume : Option Bool)
    : (MonitorPc.closing resume).completion = none := rfl

@[simp]
theorem MonitorPc.completion_resumed (resume : Option Bool)
    : (MonitorPc.resumed resume).completion = none := by
  cases resume <;> rfl

theorem refusal_update (callbacks : Nat → CallbackPc) (callback : Nat) (pc : CallbackPc)
    : (fun c => (Function.update callbacks callback pc c).refusal)
        =
      Function.update (fun c => (callbacks c).refusal) callback pc.refusal := by
  funext c
  by_cases hcallback : c = callback
  . subst hcallback
    simp
  . simp [hcallback]

theorem refusal_update_of_eq {callbacks : Nat → CallbackPc} {callback : Nat} {pc : CallbackPc}
    (h : pc.refusal = (callbacks callback).refusal)
    : (fun c => (Function.update callbacks callback pc c).refusal) = fun c => (callbacks c).refusal := by
  rw [refusal_update, h]
  exact Function.update_eq_self callback _

def isActive (reason : StreamEndReason) : Bool := decide (reason = .Active)

namespace SessionRun

def race (w : SessionRun) : EndRace StreamEndReason where
  reason := w.endReason
  closed := w.queue.closed
  refused c := (w.callbacks c).refusal
  completing := w.monitor.completion

def refuses (result : BoundedFifo.Push Bytes × ByteQueue) : Bool :=
  match result.1 with
  | .refused => true
  | _ => false

def act (w : SessionRun) (event : SessionEvent) : Option (EndRace.Act StreamEndReason) :=
  match event with
  | .callback callback late =>
    match w.callbacks callback with
    | .pushing _ packet =>
      if refuses (w.queue.push packet late) then some (.refuse callback) else none
    | .waiting _ packet =>
      if refuses (w.queue.pushWake packet late) then some (.refuse callback) else none
    | .overflowed _ _ => some (.overflow callback)
    | .stored _ => some .close
    | _ => none
  | .monitor _ =>
    match w.monitor with
    | .completing reason _ => if w.endReason = .Active then some (.pass reason) else none
    | .storing _ _ => some .complete
    | .closing _ => some .close
    | _ => none
  | .stop =>
    match w.owner with
    | .stopping => some .close
    | _ => none
  | _ => none

-- The step does what its act does in the race.
def Simulates (w w' : SessionRun) (act : Option (EndRace.Act StreamEndReason)) : Prop :=
  EndRace.Matches isActive .QueueOverflow w.race w'.race act

variable {w w' : SessionRun}

theorem simulates_afterPush {callback : Nat} {type : UInt32} {packet : Bytes}
    {result : BoundedFifo.Push Bytes × ByteQueue} (hpc : (w.callbacks callback).refusal = none)
    (hclosed : result.2.closed = w.queue.closed)
    : Simulates w (w.afterPush callback type packet result)
        (if refuses result then some (.refuse callback) else none) := by
  rcases result with ⟨outcome, queue⟩
  cases outcome with
  | accepted item =>
    simp only [Simulates, EndRace.Matches, refuses, afterPush, race, setCallback, Bool.false_eq_true, if_false]
    rw [refusal_update_of_eq (by rw [hpc]; rfl), hclosed]
  | refused =>
    simp only [Simulates, EndRace.Matches, refuses, afterPush, race, setCallback, if_true, EndRace.step]
    rw [refusal_update, hclosed]
    rfl
  | waiting =>
    simp only [Simulates, EndRace.Matches, refuses, afterPush, race, setCallback, Bool.false_eq_true, if_false]
    rw [refusal_update_of_eq (by rw [hpc]; rfl), hclosed]

theorem simulates_acceptData {callback : Nat} {late : Bool}
    (hstep : w.acceptData callback late = some w') : Simulates w w' (w.act (.callback callback late)) := by
  unfold acceptData at hstep
  unfold act
  cases hpc : w.callbacks callback with
  | idle => simp [hpc] at hstep
  | entered type packet =>
    simp only [hpc] at hstep ⊢
    split at hstep
    . cases hstep
      simp only [Simulates, EndRace.Matches, race, setCallback]
      rw [refusal_update_of_eq (by rw [hpc]; rfl)]
    . cases hstep
      simp only [Simulates, EndRace.Matches, race, setCallback]
      rw [refusal_update_of_eq (by rw [hpc]; rfl)]
  | pushing type packet =>
    simp only [hpc] at hstep ⊢
    cases hstep
    apply simulates_afterPush
    . rw [hpc]
      rfl
    . simp
  | waiting type packet =>
    simp only [hpc] at hstep ⊢
    cases hstep
    apply simulates_afterPush
    . rw [hpc]
      rfl
    . simp
  | queued type =>
    simp only [hpc] at hstep ⊢
    cases hstep
    simp only [Simulates, EndRace.Matches, race, setCallback]
    rw [refusal_update_of_eq (by rw [hpc]; rfl)]
  | refused packet wasOpen =>
    simp only [hpc] at hstep ⊢
    cases hstep
    simp only [Simulates, EndRace.Matches, race, setCallback]
    rw [refusal_update_of_eq (by rw [hpc]; rfl)]
  | overflowed packet wasOpen =>
    simp only [hpc] at hstep ⊢
    cases hstep
    have hrefused : w.race.refused callback = some wasOpen := by
      simp [race, hpc, CallbackPc.refusal]
    simp only [Simulates, EndRace.Matches, EndRace.step, hrefused]
    simp only [race, setCallback]
    rw [refusal_update]
    rfl
  | stored packet =>
    simp only [hpc] at hstep ⊢
    cases hstep
    simp only [Simulates, EndRace.Matches, EndRace.step, race, setCallback]
    rw [refusal_update_of_eq (by rw [hpc]; rfl)]
    rfl

theorem simulates_monitorStep {input : MonitorInput} (hstep : w.monitorStep input = some w')
    : Simulates w w' (w.act (.monitor input)) := by
  unfold monitorStep at hstep
  unfold act
  cases hpc : w.monitor with
  | notStarted => simp [hpc] at hstep
  | exited => simp [hpc] at hstep
  | loop =>
    simp only [hpc] at hstep ⊢
    cases hstep
    simp only [Simulates, EndRace.Matches, race, hpc]
    split <;> rfl
  | sleeping =>
    simp only [hpc] at hstep ⊢
    cases hstep
    simp only [Simulates, EndRace.Matches, race, hpc]
    split
    . rfl
    . split <;> rfl
  | keepAlive positionDue =>
    simp only [hpc] at hstep ⊢
    split at hstep
    . cases hstep
      simp only [Simulates, EndRace.Matches, race, hpc]
      rfl
    . cases hstep
      simp only [Simulates, EndRace.Matches, race, hpc]
      split <;> rfl
  | keptAlive positionDue =>
    simp only [hpc] at hstep ⊢
    cases hstep
    simp only [Simulates, EndRace.Matches, race, hpc]
    split
    . rfl
    . split <;> rfl
  | position =>
    simp only [hpc] at hstep ⊢
    cases hstep
    simp only [Simulates, EndRace.Matches, race, hpc]
    split
    . rfl
    . split <;> rfl
  | completing reason resume =>
    simp only [hpc] at hstep ⊢
    cases hstep
    by_cases hactive : w.endReason = .Active
    . simp [Simulates, EndRace.Matches, EndRace.step, race, hactive, isActive]
    . simp [Simulates, EndRace.Matches, race, hactive, hpc]
  | storing reason resume =>
    simp only [hpc] at hstep ⊢
    cases hstep
    simp [Simulates, EndRace.Matches, EndRace.step, race, hpc]
  | closing resume =>
    simp only [hpc] at hstep ⊢
    cases hstep
    simp [Simulates, EndRace.Matches, EndRace.step, race, hpc, ByteQueue.close]

theorem race_afterPop {pump : Pump} {result : BoundedFifo.Pop Bytes × ByteQueue}
    (hclosed : result.2.closed = w.queue.closed) : (w.afterPop pump result).race = w.race := by
  rcases result with ⟨outcome, queue⟩
  dsimp only at hclosed
  cases outcome
  all_goals
    simp only [race, afterPop]
    rw [hclosed]

theorem race_pumpStep {pump : Pump} {late : Bool} (hstep : w.pumpStep pump late = some w')
    : w'.race = w.race := by
  rcases pumpStep_cases hstep with ⟨timedOut, rfl⟩ | ⟨pump', rfl⟩
  . exact race_afterPop (w.queue.popWake_closed timedOut)
  . rfl

theorem race_writeInput {pump : Pump} {count : Int} {interrupted : Bool}
    (hstep : w.writeInput pump count interrupted = some w') : w'.race = w.race := by
  rcases writeInput_cases hstep with rfl | ⟨pump', rfl⟩
  . rfl
  . rfl

theorem race_deliver {callback : Nat} {type : UInt32} {data : Option Bytes}
    (hstep : w.deliver callback type data = some w') : w'.race = w.race := by
  unfold deliver at hstep
  split at hstep
  . cases hstep
    rfl
  . next hpc =>
    split at hstep
    . cases hstep
      rfl
    . split at hstep
      . cases hstep
        rfl
      . cases hstep
        simp only [race, setCallback]
        rw [refusal_update_of_eq (by rw [hpc]; rfl)]
  . contradiction

theorem simulates_stop (hstep : w.stop = some w') : Simulates w w' (w.act .stop) := by
  unfold stop at hstep
  unfold act
  cases hpc : w.owner with
  | inUse =>
    simp only [hpc] at hstep ⊢
    cases hstep
    rfl
  | stopping =>
    simp only [hpc] at hstep ⊢
    cases hstep
    rfl
  | joining =>
    simp only [hpc] at hstep ⊢
    split at hstep
    . cases hstep
      rfl
    . contradiction
  | released => simp [hpc] at hstep

/--
Every step of the session is a step of the race, or leaves the race as it is.
-/
theorem simulates_step {event : SessionEvent} (hstep : w.step event = some w')
    : Simulates w w' (w.act event) := by
  unfold step at hstep
  split at hstep
  . exact race_deliver hstep
  . exact simulates_acceptData hstep
  . split at hstep
    . next hidle =>
      cases hstep
      simp only [act, Simulates, race, hidle.1]
      rfl
    . contradiction
  . exact simulates_monitorStep hstep
  . exact simulates_stop hstep
  . cases hstep
    rfl
  . exact race_pumpStep hstep
  . exact race_writeInput hstep
  . cases hstep
    rfl
  . split at hstep
    . cases hstep
      rfl
    . contradiction
  . contradiction

/--
The step keeps the race for the end reason in order: a packet is refused only while the queue is
open, no end but an overflow is stored and the monitor is not between its check and its store, and
the monitor's check passes only while no callback is between a refusal and its store.
-/
def Orderly (w : SessionRun) (event : SessionEvent) : Prop :=
  EndRace.OrderlyStep isActive .QueueOverflow race act w event

/--
The step does not replace an end reason, and it stores an overflow only for a packet that was
refused while the queue was open.
-/
def EndReasonFinal (w : SessionRun) (event : SessionEvent) : Prop :=
  (∀ w', w.step event = some w' → w.endReason ≠ .Active → w'.endReason = w.endReason)
    ∧ ∀ callback late packet wasOpen, event = .callback callback late
      → w.callbacks callback = .overflowed packet wasOpen → wasOpen = true

theorem endReasonFinal_of_orderly {limit : Nat} {windows : Bool} {events : List SessionEvent}
    (horderly : Machine.Meets step Orderly (start limit windows) events)
    : Machine.Meets step EndReasonFinal (start limit windows) events := by
  have hinv : EndRace.Inv isActive .QueueOverflow (start limit windows).race :=
    ⟨fun _ _ h => (nomatch h), fun _ _ h => (nomatch h), fun _ h => (nomatch h)⟩
  have hfinal := EndRace.meets_finalStep (fun _ _ _ h => simulates_step h) hinv horderly
  apply hfinal.mono
  intro w event hstep
  constructor
  . intro w' hw' hended
    apply hstep.1 w' hw'
    unfold isActive
    rw [decide_eq_false_iff_not]
    exact hended
  . rintro callback late packet wasOpen rfl hpc
    apply hstep.2 callback wasOpen
    . simp [act, hpc]
    . simp [race, hpc, CallbackPc.refusal]

end SessionRun
end HikBridge
