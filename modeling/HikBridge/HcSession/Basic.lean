import HikBridge.ByteQueue.Basic

/-!
This module contains `HcSession` with the threads that share it: the callbacks of the SDK, the
playback monitor, the owner that stops it and the input pumps of the FFmpeg processes that read its
queue. A step of a thread is one access to an atomic variable or one critical section of the queue.
-/

namespace HikBridge

-- The packet types of HCNetSDK that carry stream data.
def netDvrSyshead : UInt32 := 1
def netDvrStreamdata : UInt32 := 2
def netDvrStdVideodata : UInt32 := 4

def isStreamType (type : UInt32) : Bool :=
  decide (type = netDvrSyshead) || decide (type = netDvrStreamdata)
    || decide (type = netDvrStdVideodata)

structure HcSession where
  queue : ByteQueue
  stopped : Bool := false
  overflow : Bool := false
  endReason : StreamEndReason := .Active
  sdkBytes : Nat := 0
  headerPackets : Nat := 0
  mediaPackets : Nat := 0
  firstData : Bool := false
  keepAliveFailures : Nat := 0

-- Where a call of `accept_data` stands. A refusal remembers whether the queue was open.
inductive CallbackPc where
  | idle
  | entered (type : UInt32) (packet : Bytes)
  | pushing (type : UInt32) (packet : Bytes)
  | waiting (type : UInt32) (packet : Bytes)
  | queued (type : UInt32)
  | refused (packet : Bytes) (wasOpen : Bool)
  | overflowed (packet : Bytes) (wasOpen : Bool)
  | stored (packet : Bytes)
  deriving DecidableEq

-- Where the playback monitor stands. `complete_playback` resumes after a keep-alive or leaves.
inductive MonitorPc where
  | notStarted
  | loop
  | sleeping
  | keepAlive (positionDue : Bool)
  | keptAlive (positionDue : Bool)
  | position
  | completing (reason : StreamEndReason) (resume : Option Bool)
  | storing (reason : StreamEndReason) (resume : Option Bool)
  | closing (resume : Option Bool)
  | exited
  deriving DecidableEq

def MonitorPc.resumed (resume : Option Bool) : MonitorPc :=
  match resume with
  | some positionDue => .keptAlive positionDue
  | none => .exited

-- Where the owner stands in `stop`.
inductive OwnerPc where
  | inUse
  | stopping
  | joining
  | released
  deriving DecidableEq

-- `empty…` follows a `pop` without data, `leaving…` follows the loop.
inductive PumpPc where
  | loop
  | popping
  | waiting
  | emptyStop
  | emptyClosed
  | emptyClock
  | writing (rest : Bytes)
  | leaving
  | leavingClosed
  | closing
  | done
  deriving DecidableEq

def PumpPc.isWriting : PumpPc → Bool
  | .writing _ => true
  | _ => false

structure Pump where
  pc : PumpPc := .loop
  stopRequested : Bool := false
  inputEndReason : StreamEndReason := .Active
  popped : List Bytes := []
  written : Bytes := []

/--
A session in use. `delivered` holds the stream packets the SDK handed over, `accepted` those that
were queued and `dropped` those for which `accept_data` returned without having queued them.
-/
structure SessionRun extends HcSession where
  windows : Bool
  callbacks : Nat → CallbackPc := fun _ => .idle
  monitor : MonitorPc := .notStarted
  owner : OwnerPc := .inUse
  pump : Option Pump := none
  finished : List Pump := []
  delivered : List Bytes := []
  accepted : List Bytes := []
  dropped : List Bytes := []
  popped : List Bytes := []

-- What a step of the monitor learns from the clock and from the SDK.
structure MonitorInput where
  keepAliveDue : Bool := false
  positionDue : Bool := false
  keptAlive : Bool := true
  position : UInt32 := 0
  deriving DecidableEq

inductive SessionEvent where
  | deliver (callback : Nat) (type : UInt32) (data : Option Bytes)
  | callback (callback : Nat) (late : Bool)
  | startMonitor
  | monitor (input : MonitorInput)
  | stop
  | startPump
  | pump (late : Bool)
  | write (count : Int) (interrupted : Bool)
  | stopPump
  | joinPump

namespace SessionRun

variable (w : SessionRun)

def start (limit : Nat) (windows : Bool) : SessionRun := { queue := { limit }, windows }

def setCallback (callback : Nat) (pc : CallbackPc) : SessionRun :=
  { w with callbacks := Function.update w.callbacks callback pc }

-- The call of `accept_data` up to and including its first check.
def deliver (callback : Nat) (type : UInt32) (data : Option Bytes) : Option SessionRun :=
  match w.callbacks callback, data with
  | .idle, none => some w
  | .idle, some packet =>
    if packet.isEmpty || !isStreamType type then
      some w
    else if w.stopped then
      some { w with delivered := w.delivered ++ [packet], dropped := w.dropped ++ [packet] }
    else
      some { w.setCallback callback (.entered type packet) with
        delivered := w.delivered ++ [packet] }
  | _, _ => none

def afterPush (callback : Nat) (type : UInt32) (packet : Bytes)
    (result : BoundedFifo.Push Bytes × ByteQueue) : SessionRun :=
  match result with
  | (.accepted item, queue) =>
    { w.setCallback callback (.queued type) with queue, accepted := w.accepted ++ [item] }
  | (.refused, queue) => { w.setCallback callback (.refused packet !w.queue.closed) with queue }
  | (.waiting, queue) => { w.setCallback callback (.waiting type packet) with queue }

def acceptData (callback : Nat) (late : Bool) : Option SessionRun :=
  match w.callbacks callback with
  | .idle => none
  | .entered type packet =>
    if w.endReason ≠ .Active then
      some { w.setCallback callback .idle with dropped := w.dropped ++ [packet] }
    else
      some { w.setCallback callback (.pushing type packet) with
        sdkBytes := w.sdkBytes + packet.length
        headerPackets := if type = netDvrSyshead then w.headerPackets + 1 else w.headerPackets
        mediaPackets := if type = netDvrSyshead then w.mediaPackets else w.mediaPackets + 1 }
  | .pushing type packet => some (w.afterPush callback type packet (w.queue.push packet late))
  | .waiting type packet => some (w.afterPush callback type packet (w.queue.pushWake packet late))
  | .queued type =>
    some { w.setCallback callback .idle with
      firstData := w.firstData || decide (type ≠ netDvrSyshead) }
  | .refused packet wasOpen =>
    some { w.setCallback callback (.overflowed packet wasOpen) with overflow := true }
  | .overflowed packet _ =>
    some { w.setCallback callback (.stored packet) with endReason := .QueueOverflow }
  | .stored packet =>
    some { w.setCallback callback .idle with
      queue := w.queue.close
      dropped := w.dropped ++ [packet] }

-- The loop of the monitor thread, with `send_playback_keep_alive` and `complete_playback` in it.
def monitorStep (input : MonitorInput) : Option SessionRun :=
  match w.monitor with
  | .notStarted | .exited => none
  | .loop => some { w with monitor := if w.stopped then .exited else .sleeping }
  | .sleeping =>
    some { w with
      monitor :=
        if input.keepAliveDue then .keepAlive input.positionDue
        else if input.positionDue then .position
        else .loop }
  | .keepAlive positionDue =>
    if input.keptAlive then
      some { w with keepAliveFailures := 0, monitor := .keptAlive positionDue }
    else
      let failures := w.keepAliveFailures + 1
      some { w with
        keepAliveFailures := failures
        monitor :=
          if failures ≥ 3 then .completing .SdkKeepAliveFailed (some positionDue)
          else .keptAlive positionDue }
  | .keptAlive positionDue =>
    some { w with
      monitor :=
        if w.endReason ≠ .Active then .exited else if positionDue then .position else .loop }
  | .position =>
    some { w with
      monitor :=
        if input.position = 100 then .completing .PlaybackEnd none
        else if input.position = 200 then .completing .PlaybackPositionError none
        else .loop }
  | .completing reason after =>
    some { w with
      monitor := if w.endReason ≠ .Active then .resumed after else .storing reason after }
  | .storing reason after => some { w with endReason := reason, monitor := .closing after }
  | .closing after => some { w with queue := w.queue.close, monitor := .resumed after }

def stop : Option SessionRun :=
  match w.owner with
  | .inUse => some { w with stopped := true, owner := .stopping }
  | .stopping => some { w with queue := w.queue.close, owner := .joining }
  | .joining =>
    if w.monitor = .notStarted ∨ w.monitor = .exited then
      some { w with owner := .released }
    else
      none
  | .released => none

def afterPop (pump : Pump) (result : BoundedFifo.Pop Bytes × ByteQueue) : SessionRun :=
  match result with
  | (.taken packet, queue) =>
    { w with
      queue
      popped := w.popped ++ [packet]
      pump := some { pump with pc := .writing packet, popped := pump.popped ++ [packet] } }
  | (.nothing, queue) => { w with queue, pump := some { pump with pc := .emptyStop } }
  | (.waiting, queue) => { w with queue, pump := some { pump with pc := .waiting } }

-- The thread that `start_pump` starts, up to the writes to the pipe.
def pumpStep (pump : Pump) (late : Bool) : Option SessionRun :=
  match pump.pc with
  | .loop =>
    some { w with
      pump := some { pump with pc := if pump.stopRequested then .leaving else .popping } }
  | .popping => some (w.afterPop pump w.queue.pop)
  | .waiting => some (w.afterPop pump (w.queue.popWake late))
  | .emptyStop =>
    some { w with
      pump := some { pump with pc := if pump.stopRequested then .leaving else .emptyClosed } }
  | .emptyClosed =>
    some { w with
      pump := some { pump with pc := if w.queue.isClosed then .leaving else .emptyClock } }
  | .emptyClock =>
    if late then
      some { w with
        pump := some { pump with pc := .leaving, inputEndReason := .SdkDataTimeout } }
    else
      some { w with pump := some { pump with pc := .loop } }
  | .writing [] => some { w with pump := some { pump with pc := .loop } }
  | .writing (_ :: _) => none
  | .leaving =>
    some { w with
      pump := some { pump with pc := if pump.stopRequested then .closing else .leavingClosed } }
  | .leavingClosed =>
    some { w with
      pump := some { pump with
        pc := .closing
        inputEndReason :=
          if w.queue.isClosed then pump.inputEndReason else .SdkDataTimeout } }
  | .closing => some { w with pump := some { pump with pc := .done } }
  | .done => none

-- What one call of `write` or `WriteFile` is offered of the rest of a packet.
def offered (rest : Bytes) : Nat := if w.windows then min rest.length 65536 else rest.length

-- One round of the loop of `write_input`, with what the operating system answers.
def writeInput (pump : Pump) (count : Int) (interrupted : Bool) : Option SessionRun :=
  match pump.pc with
  | .writing (byte :: bytes) =>
    let rest := byte :: bytes
    if count < 0 && interrupted && !w.windows then
      some w
    else if count ≤ 0 then
      some { w with pump := some { pump with pc := .leaving } }
    else if count.toNat > w.offered rest then
      none
    else
      some { w with
        pump := some { pump with
          pc := .writing (rest.drop count.toNat)
          written := pump.written ++ rest.take count.toNat } }
  | _ => none

def step (event : SessionEvent) : Option SessionRun :=
  match event, w.pump with
  | .deliver callback type data, _ => w.deliver callback type data
  | .callback callback late, _ => w.acceptData callback late
  | .startMonitor, _ =>
    if w.monitor = .notStarted ∧ w.owner = .inUse then some { w with monitor := .loop } else none
  | .monitor input, _ => w.monitorStep input
  | .stop, _ => w.stop
  | .startPump, none => some { w with pump := some {} }
  | .pump late, some pump => w.pumpStep pump late
  | .write count interrupted, some pump => w.writeInput pump count interrupted
  | .stopPump, some pump => some { w with pump := some { pump with stopRequested := true } }
  | .joinPump, some pump =>
    if pump.pc = .done then
      some { w with pump := none, finished := w.finished ++ [pump] }
    else
      none
  | _, _ => none

section Moves

variable {w} {w' : SessionRun} {pump : Pump}

inductive MonitorMoves (w : SessionRun) : SessionRun → Prop where
  | waits (keepAliveFailures : Nat) (monitor : MonitorPc)
    : MonitorMoves w { w with keepAliveFailures, monitor }
  | stores {reason : StreamEndReason} {after : Option Bool} (hpc : w.monitor = .storing reason after)
    : MonitorMoves w { w with endReason := reason, monitor := .closing after }
  | closes {after : Option Bool} (hpc : w.monitor = .closing after)
    : MonitorMoves w { w with queue := w.queue.close, monitor := .resumed after }

theorem monitorMoves_of_step {input : MonitorInput} (hstep : w.monitorStep input = some w')
    : MonitorMoves w w' := by
  unfold monitorStep at hstep
  cases hpc : w.monitor with
  | notStarted | exited => simp [hpc] at hstep
  | loop | sleeping | keptAlive | position | completing =>
    simp only [hpc] at hstep
    cases hstep
    exact .waits _ _
  | keepAlive positionDue =>
    simp only [hpc] at hstep
    split at hstep
    . cases hstep
      exact .waits _ _
    . cases hstep
      exact .waits _ _
  | storing reason after =>
    simp only [hpc] at hstep
    cases hstep
    exact .stores hpc
  | closing after =>
    simp only [hpc] at hstep
    cases hstep
    exact .closes hpc

theorem pumpStep_cases {late : Bool} (hstep : w.pumpStep pump late = some w')
    : (∃ timedOut, w' = w.afterPop pump (w.queue.popWake timedOut))
      ∨ ∃ pump', w' = { w with pump := some pump' } := by
  unfold pumpStep at hstep
  cases hpc : pump.pc with
  | loop | emptyStop | emptyClosed | leaving | leavingClosed | closing =>
    simp only [hpc] at hstep
    cases hstep
    exact .inr ⟨_, rfl⟩
  | popping =>
    simp only [hpc] at hstep
    cases hstep
    exact .inl ⟨false, rfl⟩
  | waiting =>
    simp only [hpc] at hstep
    cases hstep
    exact .inl ⟨late, rfl⟩
  | emptyClock =>
    simp only [hpc] at hstep
    split at hstep
    . cases hstep
      exact .inr ⟨_, rfl⟩
    . cases hstep
      exact .inr ⟨_, rfl⟩
  | writing rest =>
    simp only [hpc] at hstep
    cases rest with
    | nil =>
      cases hstep
      exact .inr ⟨_, rfl⟩
    | cons byte bytes => contradiction
  | done => simp [hpc] at hstep

theorem writeInput_cases {count : Int} {interrupted : Bool}
    (hstep : w.writeInput pump count interrupted = some w')
    : w' = w ∨ ∃ pump', w' = { w with pump := some pump' } := by
  unfold writeInput at hstep
  split at hstep
  . dsimp only at hstep
    split at hstep
    . cases hstep
      exact .inl rfl
    . split at hstep
      . cases hstep
        exact .inr ⟨_, rfl⟩
      . split at hstep
        . contradiction
        . cases hstep
          exact .inr ⟨_, rfl⟩
  . contradiction

end Moves

end SessionRun
end HikBridge
