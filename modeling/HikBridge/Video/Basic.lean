import HikBridge.Basic
import HikBridge.Lib.Program

/-!
This module contains what the `/video` handler is given, what its environment can do at every point
of a run, and the checks that the handler makes on its way. What is decided by a clock, the operating
system, the SDK, FFmpeg or another thread is decided by the answers of the environment.
-/

namespace HikBridge

inductive DetectedVideoCodec where
  | Unknown
  | H264
  | H265
  deriving DecidableEq, Repr

inductive VideoOutputMode where
  | Copy
  | H264Transcode
  deriving DecidableEq, Repr

inductive StreamOption where
  | RealPlay
  | Playback
  deriving DecidableEq, Repr

structure StreamRequest where
  option : StreamOption
  ip : String
  port : Int
  speedIsOne : Bool
  startTime : Int
  endTime : Int
  sid : Bytes

/--
The request, the configuration and the platform of one handler. Whether `log_line` and `set_ended`
can fail is a matter of memory and of the log file.
-/
structure Setting where
  request : StreamRequest
  windows : Bool
  hardwareBackend : Bool
  enableAudio : Bool
  readVideoCodecFromDevice : Bool
  realplayKeyframeIntervalFrames : Int
  forceKeyframeOnRealplay : Bool := true
  -- how often the speed is doubled or halved
  speedSteps : Nat := 0
  loggingThrows : Bool
  setEndedThrows : Bool

-- The reasons that the threads of `HcSession` store in `end_reason_`.
inductive SdkEnd where
  | queueOverflow
  | playbackEnd
  | playbackPositionError
  | sdkKeepAliveFailed
  deriving DecidableEq, Repr

def SdkEnd.reason (sdkEnd : SdkEnd) : StreamEndReason :=
  match sdkEnd with
  | .queueOverflow => .QueueOverflow
  | .playbackEnd => .PlaybackEnd
  | .playbackPositionError => .PlaybackPositionError
  | .sdkKeepAliveFailed => .SdkKeepAliveFailed

inductive SocketError where
  | wouldBlock
  | interrupted
  | other
  deriving DecidableEq, Repr

-- What `poll` and `recv` with `MSG_PEEK` say about the socket of the browser.
inductive PollAnswer where
  | nothing
  | failed (error : SocketError)
  | broken
  | readable (count : Int) (error : SocketError)
  deriving DecidableEq, Repr

/--
One answer of the environment: what other threads do before a step of the handler, and what the call
in that step returns.
-/
structure Tick where
  shutdown : Bool := false
  cancel : Bool := false
  fails : Option Exn := none
  refuses : Bool := false
  late : Bool := false
  poll : PollAnswer := .nothing
  count : Int := 65536
  error : SocketError := .wouldBlock
  data : Bytes := []
  codec : DetectedVideoCodec := .H264
  interval : Nat := 0
  sdkEnd : Option SdkEnd := none
  inputTimeout : Bool := false
  number : Nat := 0
  monitorCalls : Nat := 0

def Tick.sdkId (tick : Tick) : Int := if tick.refuses then -1 else tick.number

-- `g_running` is never set again, `State::cancelled` is never reset.
structure Env where
  running : Bool := true
  cancelled : Bool := false
  deriving DecidableEq

def Env.advance (env : Env) (tick : Tick) : Env :=
  { running := env.running && !tick.shutdown, cancelled := env.cancelled || tick.cancel }

/--
One step of the handler, before which the other threads have their way.
-/
def observe : Program Env Tick Exn Tick := do
  let tick ← Program.ask
  Program.update fun env => env.advance tick
  pure tick

def isRunning : Program Env Tick Exn Bool := do
  let _ ← observe
  let env ← Program.inspect
  pure env.running

def isCancelled : Program Env Tick Exn Bool := do
  let _ ← observe
  let env ← Program.inspect
  pure env.cancelled

-- A call outside the handler that throws what it likes.
def external : Program Env Tick Exn Tick := do
  let tick ← observe
  match tick.fails with
  | some exn => Program.raise exn
  | none => pure tick

def logLine (v : Setting) : Program Env Tick Exn Unit := do
  let tick ← observe
  match tick.fails with
  | some exn => if v.loggingThrows then Program.raise exn else pure ()
  | none => pure ()

-- A log line in a destructor, where an exception ends the process.
def logLineNoexcept (v : Setting) : Program Env Tick Exn Unit :=
  Program.rescue (logLine v) fun _ => Program.terminate

def checkRunning : Program Env Tick Exn Unit := do
  let running ← isRunning
  if running then pure () else Program.raise .other

def checkVideoClient (v : Setting) : Program Env Tick Exn Unit := do
  let running ← isRunning
  if !running then
    Program.raise .clientDisconnected
  else do
    let tick ← observe
    match tick.poll with
    | .nothing => pure ()
    | .failed error =>
      if !v.windows && error == .interrupted then pure () else Program.raise .clientDisconnected
    | .broken => Program.raise .clientDisconnected
    | .readable count error =>
      if count = 0 then
        Program.raise .clientDisconnected
      else if count < 0 && error != .wouldBlock then
        if !v.windows && error == .interrupted then pure () else Program.raise .clientDisconnected
      else
        pure ()

-- The lambda `check_client` of `handle_video`.
def checkClient (v : Setting) : Program Env Tick Exn Unit := do
  let cancelled ← isCancelled
  if cancelled then Program.raise .clientDisconnected else checkVideoClient v

-- `HcSession::check_request`
def checkRequest (v : Setting) : Program Env Tick Exn Unit := do
  checkRunning
  checkClient v

def findAtom (data atom : Bytes) : Nat :=
  match data with
  | [] => 0
  | byte :: rest => if atom.isPrefixOf (byte :: rest) then 0 else findAtom rest atom + 1

def containsAtom (data : Bytes) (atom : String) : Bool :=
  decide (findAtom data (Bytes.lit atom) ≠ data.length)

def detectVideoCodec (initialMp4 : Bytes) : DetectedVideoCodec :=
  if containsAtom initialMp4 "hvcC" then .H265
  else if containsAtom initialMp4 "avcC" then .H264
  else .Unknown

namespace Setting

def h264CopyAllowed (v : Setting) : Bool :=
  v.request.speedIsOne && (v.windows || v.request.option == .RealPlay)

def linuxH264PlaybackTranscodePolicy (v : Setting) : Bool :=
  !v.windows && v.request.option == .Playback

-- `FfmpegHardwareAcceleration::select_plan(...).hardware_enabled`
def selectPlan (v : Setting) (outputMode : VideoOutputMode) (forceSoftware : Bool) : Bool :=
  !(outputMode == .Copy || forceSoftware || !v.hardwareBackend)

end Setting

theorem findAtom_nil (atom : Bytes) : findAtom [] atom = 0 := rfl

theorem containsAtom_nil (atom : String) : containsAtom [] atom = false := by
  simp [containsAtom, findAtom_nil]

theorem keeps_observe {I : Env → Prop} (h : ∀ env tick, I env → I (env.advance tick))
    : Program.Keeps I observe := by
  apply Program.keeps_bind Program.keeps_ask
  intro tick
  apply Program.keeps_bind (Program.keeps_update fun env => h env tick)
  intro _
  exact Program.keeps_pure

theorem neverRaises_observe : Program.NeverRaises observe := by
  apply Program.neverRaises_bind Program.neverRaises_ask
  intro tick
  apply Program.neverRaises_bind Program.neverRaises_update
  intro _
  exact Program.neverRaises_pure

theorem neverRaises_isRunning : Program.NeverRaises isRunning := by
  apply Program.neverRaises_bind neverRaises_observe
  intro _
  apply Program.neverRaises_bind Program.neverRaises_inspect
  intro _
  exact Program.neverRaises_pure

theorem neverRaises_isCancelled : Program.NeverRaises isCancelled := by
  apply Program.neverRaises_bind neverRaises_observe
  intro _
  apply Program.neverRaises_bind Program.neverRaises_inspect
  intro _
  exact Program.neverRaises_pure

theorem neverRaises_logLineNoexcept (v : Setting) : Program.NeverRaises (logLineNoexcept v) :=
  Program.neverRaises_rescue fun _ => Program.neverRaises_terminate

theorem Env.advance_running {env : Env} (tick : Tick) (h : env.running = false)
    : (env.advance tick).running = false := by
  simp [Env.advance, h]

def Stable (I : Env → Prop) : Prop := ∀ env tick, I env → I (env.advance tick)

theorem stable_stopped : Stable fun env => env.running = false :=
  fun _ tick henv => Env.advance_running tick henv

theorem stable_cancelled : Stable fun env => env.cancelled = true := by
  intro env tick henv
  simp [Env.advance, henv]

theorem keeps_isCancelled {I : Env → Prop} (h : Stable I) : Program.Keeps I isCancelled := by
  apply Program.keeps_bind (keeps_observe h)
  intro _
  apply Program.keeps_bind Program.keeps_inspect
  intro _
  exact Program.keeps_pure

theorem keeps_logLine {I : Env → Prop} (h : Stable I) (v : Setting) : Program.Keeps I (logLine v) := by
  apply Program.keeps_bind (keeps_observe h)
  intro tick
  cases tick.fails with
  | none => exact Program.keeps_pure
  | some exn => exact Program.keeps_ite Program.keeps_raise Program.keeps_pure

theorem triple_isRunning_stopped
    : Program.Triple (fun env => env.running = false) isRunning
        (fun running env => running = false ∧ env.running = false) (fun _ env => env.running = false)
        (fun env => env.running = false) := by
  apply Program.triple_bind (keeps_observe stable_stopped)
  intro _
  apply Program.triple_bind (R := fun now env => now.running = false ∧ env.running = false)
  . exact Program.triple_inspect fun _ henv => ⟨henv, henv⟩
  . intro _
    exact Program.triple_pure fun _ henv => henv

theorem triple_isCancelled {b : Bool}
    : Program.Triple (fun env => env.cancelled = b) isCancelled
        (fun cancelled env => (b = true → cancelled = true) ∧
          (cancelled = true → env.cancelled = true))
        (fun _ _ => False) (fun _ => True) := by
  apply Program.triple_bind (R := fun _ env => b = true → env.cancelled = true)
  . apply Program.triple_bind (R := fun _ env => env.cancelled = b)
    . exact Program.triple_ask (fun _ _ => trivial) fun _ _ henv => henv
    . intro tick
      apply Program.triple_bind (R := fun _ env => b = true → env.cancelled = true)
      . apply Program.triple_update
        intro env henv hbefore
        simp [Env.advance, henv, hbefore]
      . intro _
        exact Program.triple_pure fun _ henv => henv
  . intro _
    apply Program.triple_bind
      (R := fun now env => env = now ∧ (b = true → now.cancelled = true))
    . exact Program.triple_inspect fun _ henv => ⟨rfl, henv⟩
    . intro now
      apply Program.triple_pure
      intro _ henv
      rw [henv.1]
      exact ⟨henv.2, fun hnow => hnow⟩

theorem triple_isRunning
    : Program.Triple (fun _ => True) isRunning
        (fun running env => running = false → env.running = false) (fun _ _ => False)
        (fun _ => True) := by
  apply Program.triple_bind neverRaises_observe
  intro _
  apply Program.triple_bind (R := fun now env => env = now)
  . exact Program.triple_inspect fun _ _ => rfl
  . intro now
    apply Program.triple_pure
    intro _ henv hrunning
    rw [henv]
    exact hrunning

-- An answer with which nothing is in the way.
def quiet : Tick := {}

theorem advance_quiet (env : Env) : env.advance quiet = env := by
  cases env
  simp [Env.advance, quiet]

theorem observe_quiet (env : Env) (rest : List Tick)
    : observe env (quiet :: rest) = (.ok quiet, env, rest) := by
  show (Outcome.ok quiet, env.advance quiet, rest) = _
  rw [advance_quiet]

theorem isRunning_quiet (env : Env) (rest : List Tick)
    : isRunning env (quiet :: rest) = (.ok env.running, env, rest) := by
  unfold isRunning
  rw [Program.bind_ok (observe_quiet env rest)]
  rfl

theorem logLine_quiet (v : Setting) (env : Env) (rest : List Tick)
    : logLine v env (quiet :: rest) = (.ok (), env, rest) := by
  unfold logLine
  rw [Program.bind_ok (observe_quiet env rest)]
  rfl

end HikBridge
