import HikBridge.Video.Setup
import HikBridge.Video.Socket

/-!
This module contains `handle_video`: the lease, the owning pointers with the order in which they are
released, the transmission of the stream and the publication of its end.
-/

namespace HikBridge

inductive LeaseState where
  | none
  | held
  | released
  deriving DecidableEq, Repr

/--
One call of `set_ended` by the handler, with whether the lease was cancelled when `publish_status`
started and at the call, and with the state of the lease at the call.
-/
structure EndRecord where
  sid : Bytes
  reason : StreamEndReason
  message : String
  queueCurrentBytes : Nat
  queuePeakBytes : Nat
  backpressureEvents : Nat
  cancelledAtStart : Bool
  cancelledAtCall : Bool
  lease : LeaseState
  deriving DecidableEq, Repr

-- The exception that reached a `catch` clause, and what held at that moment.
structure Handled where
  exn : Exn
  stopped : Bool
  published : Bool
  deriving DecidableEq, Repr

structure World where
  env : Env := {}
  heap : Heap := {}
  wire : Bytes := []
  -- the pipeline and the variables with which `send_video_headers` was called
  advertised : Option (Heap × Pipeline.Output) := none
  -- the length of the header block, once it is sent
  headers : Option Nat := none
  lease : LeaseState := .none
  statusPublished : Bool := false
  ends : List EndRecord := []
  handled : Option Handled := none
  responseStarted : Bool := false

namespace World

variable (v : Setting)

def envPart : Program.Part World Env where
  get w := w.env
  put env w := { w with env }
  get_put _ _ := rfl

def pipelinePart : Program.Part World Pipeline where
  get w := { env := w.env, heap := w.heap }
  put p w := { w with env := p.env, heap := p.heap }
  get_put _ _ := rfl

def clientPart : Program.Part World Client where
  get w := { env := w.env, wire := w.wire }
  put c w := { w with env := c.env, wire := c.wire }
  get_put _ _ := rfl

def onEnv {α : Type} (m : Program Env Tick Exn α) : Program World Tick Exn α :=
  Program.zoom envPart m

def onPipeline {α : Type} (m : Program Pipeline Tick Exn α) : Program World Tick Exn α :=
  Program.zoom pipelinePart m

def onClient {α : Type} (m : Program Client Tick Exn α) : Program World Tick Exn α :=
  Program.zoom clientPart m

-- `resolve_end_reason`
def resolveEndReason : Program Pipeline Tick Exn StreamEndReason := do
  let h ← Pipeline.currentHeap
  let sdk ← (if h.session.isSome then Pipeline.endReason else pure .Active)
  if sdk ≠ .Active then
    Pipeline.endReason
  else if h.ffmpeg.isSome then do
    let input ← Pipeline.inputEndReason
    pure (if input = .SdkDataTimeout then .SdkDataTimeout else .FfmpegExit)
  else
    pure .StreamEnded

-- `session ? session->queue_current_bytes() : 0` and the like
def queueNumber : Program Pipeline Tick Exn Nat := do
  let h ← Pipeline.currentHeap
  if h.session.isSome then do
    let _ ← Pipeline.derefSession
    let answer ← Pipeline.onEnv observe
    pure answer.count.toNat
  else
    pure 0

-- The lambda `publish_status`.
def publishStatus (reason : StreamEndReason) : Program World Tick Exn Unit := do
  let w ← Program.inspect
  if w.statusPublished then
    pure ()
  else do
    let cancelled ← onEnv isCancelled
    let reason := if cancelled then .ManualCleanup else reason
    let current ← onPipeline queueNumber
    let peak ← onPipeline queueNumber
    let backpressure ← onPipeline queueNumber
    let call ← onEnv observe
    if v.setEndedThrows ∧ call.fails ≠ none then
      Program.raise .other
    else do
      Program.update fun now => { now with
        ends := now.ends ++ [{
          sid := v.request.sid
          reason
          message := endReasonMessage reason
          queueCurrentBytes := current
          queuePeakBytes := peak
          backpressureEvents := backpressure
          cancelledAtStart := w.env.cancelled
          cancelledAtCall := now.env.cancelled
          lease := now.lease }] }
      Program.update fun now => { now with statusPublished := true }

-- `g_running.load() ? resolve_end_reason(...) : StreamEndReason::ServerStopped`
def endOfOutput : Program World Tick Exn StreamEndReason := do
  let running ← onEnv isRunning
  if running then onPipeline resolveEndReason else pure .ServerStopped

-- One round of the loop that transmits the stream.
def transmitRound : Program World Tick Exn (Unit ⊕ StreamEndReason) := do
  let running ← onEnv isRunning
  if !running then
    pure (.inr .Active)
  else do
    let data ← onPipeline (Pipeline.read v)
    if data = [] then do
      let reason ← endOfOutput
      pure (.inr reason)
    else do
      onClient (Client.sendChunk v data)
      pure (.inl ())

def transmit : Program World Tick Exn StreamEndReason :=
  Program.iterate (fun _ => transmitRound v) ()

-- The log line shows the numbers of the session.
def publishEnd (reason : StreamEndReason) : Program World Tick Exn Unit := do
  publishStatus v reason
  let _ ← onPipeline Pipeline.derefSession
  onEnv (logLine v)

-- The statements after the loop.
def finish (reason : StreamEndReason) : Program World Tick Exn Unit := do
  let reason ← (if reason = .Active then endOfOutput else pure reason)
  publishEnd v reason
  onClient (Client.sendText v (Bytes.lit "0\r\n\r\n"))

-- The rest of the `try` block, from the first media fragment on.
def deliver (output : Pipeline.Output) : Program World Tick Exn Unit := do
  onEnv (logLine v)
  -- `statuses.set_output_ready`
  let _ ← onEnv external
  Program.update fun w => { w with advertised := some (w.heap, output) }
  onClient (Client.sendVideoHeaders v output.initialMp4)
  Program.update fun w => { w with headers := some w.wire.length, responseStarted := true }
  onClient (Client.sendChunk v output.initialMp4)
  let reason ← transmit v
  finish v reason

def serve : Program World Tick Exn Unit := do
  let output ← onPipeline (Pipeline.setup v)
  deliver v output

-- The three `catch` clauses.
def publishException (exn : Exn) : Program World Tick Exn Unit := do
  match exn with
  | .clientDisconnected => do
    let running ← onEnv isRunning
    publishStatus v (if running then .ClientReplaced else .ServerStopped)
  | .bridge error =>
    publishStatus v
      (if error.code = "FFMPEG_OUTPUT_TIMEOUT" then .FfmpegOutputTimeout
       else if error.code = "CLIENT_WRITE_TIMEOUT" then .ClientWriteTimeout
       else .StartupFailed)
  | .other => do
    let running ← onEnv isRunning
    publishStatus v (if running then .StartupFailed else .ServerStopped)

def handleException (exn : Exn) : Program World Tick Exn Unit := do
  Program.update fun w => { w with
    handled := some { exn, stopped := !w.env.running, published := w.statusPublished } }
  publishException v exn
  Program.raise exn

-- The destructor of `Cleanup`.
def cleanup : Program World Tick Exn Unit := do
  onPipeline (Pipeline.resetProcess .probe)
  onPipeline (Pipeline.resetProcess .ffmpeg)
  onPipeline (Pipeline.resetSession v)
  Program.rescue (onEnv (logLine v)) fun _ => pure ()

def reserve : Program World Tick Exn Bool := do
  let answer ← onEnv external
  if answer.refuses then
    pure false
  else do
    Program.update fun w => { w with lease := .held, env := { w.env with cancelled := false } }
    pure true

-- The destructor of `Lease`.
def release : Program World Tick Exn Unit := do
  let _ ← onEnv observe
  Program.update fun w => { w with lease := .released }
  Program.rescue (onEnv (logLine v)) fun _ => pure ()

def sessionLimit : BridgeError := ⟨503, "SESSION_LIMIT", "已达到最大并发会话数"⟩

def handleVideo : Program World Tick Exn Unit := do
  onEnv (checkVideoClient v)
  let reserved ← reserve
  if !reserved then
    Program.raise (.bridge sessionLimit)
  else
    Program.ensuring
      (do
        onEnv (logLine v)
        Program.ensuring (Program.rescue (serve v) (handleException v)) (cleanup v))
      (release v)

-- A run of the handler against the given answers.
def run (ticks : List Tick) : Outcome Exn Unit × World :=
  let (outcome, w, _) := handleVideo v {} ticks
  (outcome, w)

end World
end HikBridge
