import HikBridge.ByteQueue.ByteBoundedQueue
import HikBridge.HcSession.EndReason

/-!
This module contains `HcNetStreamSession`, the SDK session of the C# bridge with the threads that
share it, and shows when the first end reason is final in the two implementations.
-/

namespace HikBridge

-- `_endReason` holds the name of a reason.
structure HcNetStreamSession where
  queue : ByteBoundedQueue
  disposed : Bool := false
  stopRequested : Bool := false
  overflow : Bool := false
  endReason : StreamEndReason := .Active
  streamHandle : Int := 0
  sdkBytes : Nat := 0
  headerPackets : Nat := 0
  mediaPackets : Nat := 0
  firstMediaSize : Nat := 0
  firstMediaType : UInt32 := 0
  firstData : Bool := false
  keepAliveFailures : Nat := 0

-- Where the owner stands in `Dispose`.
inductive DisposePc where
  | inUse
  | cancelling
  | stoppingStream
  | completing
  | disposed
  deriving DecidableEq

structure StreamRun extends HcNetStreamSession where
  callbacks : Nat → CallbackPc := fun _ => .idle
  monitor : MonitorPc := .notStarted
  owner : DisposePc := .inUse

inductive StreamEvent where
  | accept (callback : Nat) (type : UInt32) (data : Option Bytes)
  | callback (callback : Nat) (timedOut expired : Bool)
  | startMonitor
  | monitor (input : MonitorInput)
  | dispose
  | dequeue (expired : Bool)

namespace StreamRun

variable (w : StreamRun)

def start (capacity : Int) : StreamRun := { queue := { capacity } }

def setCallback (callback : Nat) (pc : CallbackPc) : StreamRun :=
  { w with callbacks := Function.update w.callbacks callback pc }

def intMaxValue : Nat := 2147483647

def accept (callback : Nat) (type : UInt32) (data : Option Bytes) : Option StreamRun :=
  match w.callbacks callback, data with
  | .idle, none => some w
  | .idle, some packet =>
    if w.disposed || packet.isEmpty then some w
    else some (w.setCallback callback (.entered type packet))
  | _, _ => none

def afterTryEnqueue (callback : Nat) (type : UInt32) (packet : Bytes)
    (result : BoundedFifo.Push Bytes × ByteBoundedQueue) : StreamRun :=
  match result with
  | (.accepted _, queue) => { w.setCallback callback (.queued type) with queue }
  | (.refused, queue) => { w.setCallback callback (.refused packet !w.queue.completed) with queue }
  | (.waiting, queue) => { w.setCallback callback (.waiting type packet) with queue }

def acceptData (callback : Nat) (timedOut expired : Bool) : Option StreamRun :=
  match w.callbacks callback with
  | .idle => none
  | .entered type packet =>
    if decide (w.endReason ≠ .Active) || !isStreamType type || decide (packet.length > intMaxValue) then
      some (w.setCallback callback .idle)
    else if type = netDvrSyshead then
      some { w.setCallback callback (.pushing type packet) with
        sdkBytes := w.sdkBytes + packet.length
        headerPackets := w.headerPackets + 1 }
    else
      some { w.setCallback callback (.pushing type packet) with
        sdkBytes := w.sdkBytes + packet.length
        mediaPackets := w.mediaPackets + 1
        firstMediaSize := if w.firstMediaSize = 0 then packet.length else w.firstMediaSize
        firstMediaType := if w.firstMediaSize = 0 then type else w.firstMediaType }
  | .pushing type packet =>
    some (w.afterTryEnqueue callback type packet (w.queue.tryEnqueue (some packet) expired))
  | .waiting type packet =>
    some (w.afterTryEnqueue callback type packet
      (w.queue.tryEnqueueWake (some packet) timedOut expired))
  | .queued type =>
    some { w.setCallback callback .idle with
      firstData := w.firstData || decide (type ≠ netDvrSyshead) }
  | .refused packet wasOpen =>
    some { w.setCallback callback (.overflowed packet wasOpen) with overflow := true }
  | .overflowed packet _ =>
    some { w.setCallback callback (.stored packet) with endReason := .QueueOverflow }
  | .stored _ => some { w.setCallback callback .idle with queue := w.queue.complete }

-- `MonitorPlayback` with `SendPlaybackKeepAlive` and `CompletePlayback` in it.
def monitorStep (input : MonitorInput) : Option StreamRun :=
  match w.monitor with
  | .notStarted | .exited => none
  | .loop => some { w with monitor := if w.stopRequested then .exited else .sleeping }
  | .sleeping =>
    some { w with
      monitor :=
        if w.streamHandle < 0 then .exited
        else if input.keepAliveDue then .keepAlive input.positionDue
        else if input.positionDue then .position
        else .loop }
  | .keepAlive positionDue =>
    if input.keptAlive then
      some { w with keepAliveFailures := 0, monitor := .keptAlive positionDue }
    else
      let failures := w.keepAliveFailures + 1
      some { w with
        keepAliveFailures := failures
        monitor :=
          if failures ≥ 3 then .completing .SdkKeepAliveFailed (some positionDue)
          else .keptAlive positionDue }
  | .keptAlive positionDue =>
    some { w with
      monitor :=
        if w.endReason ≠ .Active then .exited else if positionDue then .position else .loop }
  | .position =>
    some { w with
      monitor :=
        if input.position = 100 then .completing .PlaybackEnd none
        else if input.position = 200 then .completing .PlaybackPositionError none
        else .loop }
  | .completing reason after =>
    some { w with
      monitor := if w.endReason ≠ .Active then .resumed after else .storing reason after }
  | .storing reason after => some { w with endReason := reason, monitor := .closing after }
  | .closing after => some { w with queue := w.queue.complete, monitor := .resumed after }

def dispose : Option StreamRun :=
  match w.owner with
  | .inUse => some { w with disposed := true, owner := .cancelling }
  | .cancelling => some { w with stopRequested := true, owner := .stoppingStream }
  | .stoppingStream => some { w with streamHandle := -1, owner := .completing }
  | .completing => some { w with queue := w.queue.complete, owner := .disposed }
  | .disposed => none

def step (event : StreamEvent) : Option StreamRun :=
  match event with
  | .accept callback type data => w.accept callback type data
  | .callback callback timedOut expired => w.acceptData callback timedOut expired
  | .startMonitor =>
    if w.monitor = .notStarted ∧ w.owner = .inUse then some { w with monitor := .loop } else none
  | .monitor input => w.monitorStep input
  | .dispose => w.dispose
  | .dequeue expired => some { w with queue := (w.queue.dequeue expired).2 }

def race : EndRace StreamEndReason where
  reason := w.endReason
  closed := w.queue.completed
  refused c := (w.callbacks c).refusal
  completing := w.monitor.completion

def refuses (result : BoundedFifo.Push Bytes × ByteBoundedQueue) : Bool :=
  match result.1 with
  | .refused => true
  | _ => false

def act (event : StreamEvent) : Option (EndRace.Act StreamEndReason) :=
  match event with
  | .callback callback timedOut expired =>
    match w.callbacks callback with
    | .pushing _ packet =>
      if refuses (w.queue.tryEnqueue (some packet) expired) then some (.refuse callback) else none
    | .waiting _ packet =>
      if refuses (w.queue.tryEnqueueWake (some packet) timedOut expired) then
        some (.refuse callback)
      else
        none
    | .overflowed _ _ => some (.overflow callback)
    | .stored _ => some .close
    | _ => none
  | .monitor _ =>
    match w.monitor with
    | .completing reason _ => if w.endReason = .Active then some (.pass reason) else none
    | .storing _ _ => some .complete
    | .closing _ => some .close
    | _ => none
  | .dispose =>
    match w.owner with
    | .completing => some .close
    | _ => none
  | _ => none

-- The step does what its act does in the race.
def Simulates (w' : StreamRun) (act : Option (EndRace.Act StreamEndReason)) : Prop :=
  EndRace.Matches isActive .QueueOverflow w.race w'.race act

variable {w w' : StreamRun}

theorem simulates_afterTryEnqueue {callback : Nat} {type : UInt32} {packet : Bytes}
    {result : BoundedFifo.Push Bytes × ByteBoundedQueue}
    (hpc : (w.callbacks callback).refusal = none) (hcompleted : result.2.completed = w.queue.completed)
    : Simulates w (w.afterTryEnqueue callback type packet result)
        (if refuses result then some (.refuse callback) else none) := by
  rcases result with ⟨outcome, queue⟩
  cases outcome with
  | accepted item =>
    simp only [Simulates, EndRace.Matches, refuses, afterTryEnqueue, race, setCallback,
      Bool.false_eq_true, if_false]
    rw [refusal_update_of_eq (by rw [hpc]; rfl), hcompleted]
  | refused =>
    simp only [Simulates, EndRace.Matches, refuses, afterTryEnqueue, race, setCallback, if_true,
      EndRace.step]
    rw [refusal_update, hcompleted]
    rfl
  | waiting =>
    simp only [Simulates, EndRace.Matches, refuses, afterTryEnqueue, race, setCallback,
      Bool.false_eq_true, if_false]
    rw [refusal_update_of_eq (by rw [hpc]; rfl), hcompleted]

theorem simulates_acceptData {callback : Nat} {timedOut expired : Bool}
    (hstep : w.acceptData callback timedOut expired = some w')
    : Simulates w w' (w.act (.callback callback timedOut expired)) := by
  unfold acceptData at hstep
  unfold act
  cases hpc : w.callbacks callback with
  | idle => simp [hpc] at hstep
  | entered type packet =>
    simp only [hpc] at hstep ⊢
    split at hstep
    . cases hstep
      simp only [Simulates, EndRace.Matches, race, setCallback]
      rw [refusal_update_of_eq (by rw [hpc]; rfl)]
    . split at hstep
      all_goals
        cases hstep
        simp only [Simulates, EndRace.Matches, race, setCallback]
        rw [refusal_update_of_eq (by rw [hpc]; rfl)]
  | pushing type packet =>
    simp only [hpc] at hstep ⊢
    cases hstep
    apply simulates_afterTryEnqueue
    . rw [hpc]
      rfl
    . simp
  | waiting type packet =>
    simp only [hpc] at hstep ⊢
    cases hstep
    apply simulates_afterTryEnqueue
    . rw [hpc]
      rfl
    . simp
  | queued type =>
    simp only [hpc] at hstep ⊢
    cases hstep
    simp only [Simulates, EndRace.Matches, race, setCallback]
    rw [refusal_update_of_eq (by rw [hpc]; rfl)]
  | refused packet wasOpen =>
    simp only [hpc] at hstep ⊢
    cases hstep
    simp only [Simulates, EndRace.Matches, race, setCallback]
    rw [refusal_update_of_eq (by rw [hpc]; rfl)]
  | overflowed packet wasOpen =>
    simp only [hpc] at hstep ⊢
    cases hstep
    have hrefused : w.race.refused callback = some wasOpen := by
      simp [race, hpc, CallbackPc.refusal]
    simp only [Simulates, EndRace.Matches, EndRace.step, hrefused]
    simp only [race, setCallback]
    rw [refusal_update]
    rfl
  | stored packet =>
    simp only [hpc] at hstep ⊢
    cases hstep
    simp only [Simulates, EndRace.Matches, EndRace.step, race, setCallback]
    rw [refusal_update_of_eq (by rw [hpc]; rfl)]
    rfl

theorem simulates_monitorStep {input : MonitorInput} (hstep : w.monitorStep input = some w')
    : Simulates w w' (w.act (.monitor input)) := by
  unfold monitorStep at hstep
  unfold act
  cases hpc : w.monitor with
  | notStarted => simp [hpc] at hstep
  | exited => simp [hpc] at hstep
  | loop =>
    simp only [hpc] at hstep ⊢
    cases hstep
    simp only [Simulates, EndRace.Matches, race, hpc]
    split <;> rfl
  | sleeping =>
    simp only [hpc] at hstep ⊢
    cases hstep
    simp only [Simulates, EndRace.Matches, race, hpc]
    split
    . rfl
    . split
      . rfl
      . split <;> rfl
  | keepAlive positionDue =>
    simp only [hpc] at hstep ⊢
    split at hstep
    . cases hstep
      simp only [Simulates, EndRace.Matches, race, hpc]
      rfl
    . cases hstep
      simp only [Simulates, EndRace.Matches, race, hpc]
      split <;> rfl
  | keptAlive positionDue =>
    simp only [hpc] at hstep ⊢
    cases hstep
    simp only [Simulates, EndRace.Matches, race, hpc]
    split
    . rfl
    . split <;> rfl
  | position =>
    simp only [hpc] at hstep ⊢
    cases hstep
    simp only [Simulates, EndRace.Matches, race, hpc]
    split
    . rfl
    . split <;> rfl
  | completing reason resume =>
    simp only [hpc] at hstep ⊢
    cases hstep
    by_cases hactive : w.endReason = .Active
    . simp [Simulates, EndRace.Matches, EndRace.step, race, hactive, isActive]
    . simp [Simulates, EndRace.Matches, race, hactive, hpc]
  | storing reason resume =>
    simp only [hpc] at hstep ⊢
    cases hstep
    simp [Simulates, EndRace.Matches, EndRace.step, race, hpc]
  | closing resume =>
    simp only [hpc] at hstep ⊢
    cases hstep
    simp [Simulates, EndRace.Matches, EndRace.step, race, hpc, ByteBoundedQueue.complete]

theorem simulates_dispose (hstep : w.dispose = some w') : Simulates w w' (w.act .dispose) := by
  unfold dispose at hstep
  unfold act
  cases hpc : w.owner with
  | disposed => simp [hpc] at hstep
  | inUse | cancelling | stoppingStream | completing =>
    simp only [hpc] at hstep ⊢
    cases hstep
    rfl

theorem race_accept {callback : Nat} {type : UInt32} {data : Option Bytes}
    (hstep : w.accept callback type data = some w') : w'.race = w.race := by
  unfold accept at hstep
  split at hstep
  . cases hstep
    rfl
  . next hpc =>
    split at hstep
    . cases hstep
      rfl
    . cases hstep
      simp only [race, setCallback]
      rw [refusal_update_of_eq (by rw [hpc]; rfl)]
  . contradiction

theorem simulates_step {event : StreamEvent} (hstep : w.step event = some w')
    : Simulates w w' (w.act event) := by
  unfold step at hstep
  split at hstep
  . exact race_accept hstep
  . exact simulates_acceptData hstep
  . split at hstep
    . next hidle =>
      cases hstep
      simp only [act, Simulates, EndRace.Matches, race, hidle.1]
      rfl
    . contradiction
  . exact simulates_monitorStep hstep
  . exact simulates_dispose hstep
  . cases hstep
    simp [act, Simulates, EndRace.Matches, race]

def Orderly (w : StreamRun) (event : StreamEvent) : Prop :=
  EndRace.OrderlyStep isActive .QueueOverflow race act w event

def EndReasonFinal (w : StreamRun) (event : StreamEvent) : Prop :=
  (∀ w', w.step event = some w' → w.endReason ≠ .Active → w'.endReason = w.endReason)
    ∧ ∀ callback timedOut expired packet wasOpen, event = .callback callback timedOut expired
      → w.callbacks callback = .overflowed packet wasOpen → wasOpen = true

theorem endReasonFinal_of_orderly {capacity : Int} {events : List StreamEvent}
    (horderly : Machine.Meets step Orderly (start capacity) events)
    : Machine.Meets step EndReasonFinal (start capacity) events := by
  have hinv : EndRace.Inv isActive .QueueOverflow (start capacity).race :=
    ⟨fun _ _ h => (nomatch h), fun _ _ h => (nomatch h), fun _ h => (nomatch h)⟩
  have hfinal := EndRace.meets_finalStep (fun _ _ _ h => simulates_step h) hinv horderly
  apply hfinal.mono
  intro w event hstep
  constructor
  . intro w' hw' hended
    apply hstep.1 w' hw'
    unfold isActive
    rw [decide_eq_false_iff_not]
    exact hended
  . rintro callback timedOut expired packet wasOpen rfl hpc
    apply hstep.2 callback wasOpen
    . simp [act, hpc]
    . simp [race, hpc, CallbackPc.refusal]

end StreamRun

/--
In the sessions of both bridges the first end reason is final, and an overflow is reported only for a
packet that a queue refused while it was open, in every run that keeps the race in order.
-/
theorem SessionRun.first_end_reason_final (limit : Nat) (windows : Bool) (events : List SessionEvent)
    (capacity : Int) (streamEvents : List StreamEvent)
    : (Machine.Meets SessionRun.step SessionRun.Orderly (SessionRun.start limit windows) events
          → Machine.Meets SessionRun.step SessionRun.EndReasonFinal
            (SessionRun.start limit windows) events)
      ∧ (Machine.Meets StreamRun.step StreamRun.Orderly (StreamRun.start capacity) streamEvents
          → Machine.Meets StreamRun.step StreamRun.EndReasonFinal
            (StreamRun.start capacity) streamEvents) := by
  constructor
  . intro horderly
    exact SessionRun.endReasonFinal_of_orderly horderly
  . intro horderly
    exact StreamRun.endReasonFinal_of_orderly horderly

/--
A packet larger than the queue ends both sessions with an overflow.
-/
theorem SessionRun.first_end_reason_final_overflow
    : Machine.Meets SessionRun.step SessionRun.EndReasonFinal (SessionRun.start 1 false)
        [.deliver 0 2 (some [1, 2]), .callback 0 false, .callback 0 false, .callback 0 false,
          .callback 0 false, .callback 0 false]
      ∧ Machine.Meets StreamRun.step StreamRun.EndReasonFinal (StreamRun.start 1)
        [.accept 0 2 (some [1, 2]), .callback 0 false false, .callback 0 false false,
          .callback 0 false false, .callback 0 false false, .callback 0 false false] := by
  constructor
  . apply (SessionRun.first_end_reason_final 1 false _ 1 []).1
    refine ⟨fun _ h => (nomatch h), fun _ h => ?_⟩
    cases h
    refine ⟨fun _ h => (nomatch h), fun _ h => ?_⟩
    cases h
    refine ⟨fun _ h => ?_, fun _ h => ?_⟩
    . cases h
      exact ⟨rfl, .inl rfl, rfl⟩
    cases h
    refine ⟨fun _ h => (nomatch h), fun _ h => ?_⟩
    cases h
    refine ⟨fun _ h => ?_, fun _ h => ?_⟩
    . cases h
      trivial
    cases h
    refine ⟨fun _ h => ?_, fun _ _ => trivial⟩
    cases h
    trivial
  . apply (SessionRun.first_end_reason_final 1 false [] 1 _).2
    refine ⟨fun _ h => (nomatch h), fun _ h => ?_⟩
    cases h
    refine ⟨fun _ h => (nomatch h), fun _ h => ?_⟩
    cases h
    refine ⟨fun _ h => ?_, fun _ h => ?_⟩
    . cases h
      exact ⟨rfl, .inl rfl, rfl⟩
    cases h
    refine ⟨fun _ h => (nomatch h), fun _ h => ?_⟩
    cases h
    refine ⟨fun _ h => ?_, fun _ h => ?_⟩
    . cases h
      trivial
    cases h
    refine ⟨fun _ h => ?_, fun _ _ => trivial⟩
    cases h
    trivial

/--
A callback that waits for space while the playback ends overwrites the end reason, and one that
waits while the owner stops the session reports an overflow of the queue that `stop` closed.
-/
theorem SessionRun.first_end_reason_overwritten
    : (∃ w w', Machine.run SessionRun.step (SessionRun.start 4 false)
          [.deliver 0 2 (some [1, 2, 3]), .callback 0 false, .callback 0 false, .callback 0 false,
            .deliver 0 2 (some [4, 5]), .callback 0 false, .callback 0 false,
            .startMonitor, .monitor {}, .monitor { positionDue := true },
            .monitor { position := 100 }, .monitor {}, .monitor {},
            .callback 0 true, .callback 0 false] = some w
        ∧ w.step (.callback 0 false) = some w'
        ∧ w.endReason = .PlaybackEnd ∧ w'.endReason = .QueueOverflow)
      ∧ (∃ w w' packet, Machine.run SessionRun.step (SessionRun.start 4 false)
          [.deliver 0 2 (some [1, 2, 3]), .callback 0 false, .callback 0 false, .callback 0 false,
            .deliver 0 2 (some [4, 5]), .callback 0 false, .callback 0 false,
            .stop, .stop, .callback 0 false, .callback 0 false] = some w
        ∧ w.callbacks 0 = .overflowed packet false
        ∧ w.step (.callback 0 false) = some w' ∧ w'.endReason = .QueueOverflow)
      ∧ ∃ w w', Machine.run StreamRun.step (StreamRun.start 4)
          [.accept 0 2 (some [1, 2, 3]), .callback 0 false false, .callback 0 false false,
            .callback 0 false false, .accept 0 2 (some [4, 5]), .callback 0 false false,
            .callback 0 false false, .startMonitor, .monitor {}, .monitor { positionDue := true },
            .monitor { position := 100 }, .monitor {}, .monitor {},
            .callback 0 true false, .callback 0 false false] = some w
        ∧ w.step (.callback 0 false false) = some w'
        ∧ w.endReason = .PlaybackEnd ∧ w'.endReason = .QueueOverflow :=
  ⟨⟨_, _, rfl, rfl, rfl, rfl⟩, ⟨_, _, _, rfl, rfl, rfl, rfl⟩, ⟨_, _, rfl, rfl, rfl, rfl⟩⟩

end HikBridge
