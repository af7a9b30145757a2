import HikBridge.Video.Sdk

/-!
This module contains the objects that a `/video` handler owns, `HcSession` and `FfmpegProcess`, the
three owning pointers to them and the operations of the handler on them. Alive is an object from the
start of its constructor to the end of its destructor, whether or not a pointer owns it.
-/

namespace HikBridge

/--
A `HcSession` as the handler sees it, with the end reason that it read last. `monitor` says that the
thread of the playback monitor runs.
-/
structure VideoSession where
  id : Nat
  user : Int := -1
  handle : Int := -1
  monitor : Bool := false
  prepared : Bool := false
  streamStarted : Bool := false
  configuredVideoCodec : DetectedVideoCodec := .Unknown
  sdkEnd : Option SdkEnd := none

/--
A `FfmpegProcess` with its child process and the pump thread that reads the queue of a session.
`output` holds the bytes that were read from its standard output, `eof` is set at their end.
-/
structure FfmpegProcess where
  id : Nat
  outputMode : VideoOutputMode
  hardwareEnabled : Bool
  child : Bool := false
  pump : Option Nat := none
  stopRequested : Bool := false
  inputTimedOut : Bool := false
  output : Bytes := []
  eof : Bool := false

-- The owning pointers of FFmpeg processes, `ffmpeg` and `probe_ffmpeg`.
inductive Slot where
  | ffmpeg
  | probe
  deriving DecidableEq

structure Heap where
  fresh : Nat := 0
  sessions : List VideoSession := []
  processes : List FfmpegProcess := []
  session : Option Nat := none
  ffmpeg : Option Nat := none
  probeFfmpeg : Option Nat := none
  -- the processes that were destroyed
  destroyed : List FfmpegProcess := []
  -- the calls of the SDK that are about a login or a stream, with the sessions that made them
  sdk : List (Nat × SdkCall) := []
  -- a null pointer or a pointer to a destroyed object was used
  undefined : Bool := false

namespace Heap

variable (h : Heap)

def slot (s : Slot) : Option Nat :=
  match s with
  | .ffmpeg => h.ffmpeg
  | .probe => h.probeFfmpeg

def setSlot (s : Slot) (value : Option Nat) : Heap :=
  match s with
  | .ffmpeg => { h with ffmpeg := value }
  | .probe => { h with probeFfmpeg := value }

def newSession : Heap :=
  { h with fresh := h.fresh + 1, sessions := h.sessions ++ [{ id := h.fresh }] }

def newProcess (outputMode : VideoOutputMode) (hardwareEnabled : Bool) : Heap :=
  { h with
    fresh := h.fresh + 1
    processes := h.processes ++ [{ id := h.fresh, outputMode, hardwareEnabled }] }

def mapSession (id : Nat) (f : VideoSession → VideoSession) : Heap :=
  { h with sessions := h.sessions.map fun session => if session.id = id then f session else session }

def mapProcess (id : Nat) (f : FfmpegProcess → FfmpegProcess) : Heap :=
  { h with processes := h.processes.map fun process =>
      if process.id = id then f process else process }

def freeSession (id : Nat) : Heap :=
  { h with sessions := h.sessions.filter fun session => session.id ≠ id }

def freeProcess (id : Nat) : Heap :=
  { h with
    processes := h.processes.filter fun process => process.id ≠ id
    destroyed := h.destroyed ++ h.processes.filter fun process => process.id = id }

/--
The calls that the monitors make while the handler is between two calls of its own.
-/
def monitorsCall (count : Nat) : Heap :=
  { h with sdk := h.sdk ++ (h.sessions.filter (·.monitor)).flatMap fun session =>
      List.replicate count (session.id, .useHandle session.handle) }

def recordSdk (id : Nat) (call : SdkCall) : Heap := { h with sdk := h.sdk ++ [(id, call)] }

end Heap

structure Pipeline where
  env : Env
  heap : Heap

def Pipeline.envPart : Program.Part Pipeline Env where
  get p := p.env
  put env p := { p with env }
  get_put _ _ := rfl

namespace Pipeline

variable (v : Setting)

def onEnv {α : Type} (m : Program Env Tick Exn α) : Program Pipeline Tick Exn α :=
  Program.zoom envPart m

def currentHeap : Program Pipeline Tick Exn Heap := do
  let p ← Program.inspect
  pure p.heap

def updateHeap (f : Heap → Heap) : Program Pipeline Tick Exn Unit :=
  Program.update fun p => { p with heap := f p.heap }

def undefinedBehavior {α : Type} : Program Pipeline Tick Exn α := do
  updateHeap fun h => { h with undefined := true }
  Program.terminate

def sessionAt (id : Nat) : Program Pipeline Tick Exn VideoSession := do
  let h ← currentHeap
  match h.sessions.find? fun session => session.id = id with
  | some session => pure session
  | none => undefinedBehavior

def processAt (id : Nat) : Program Pipeline Tick Exn FfmpegProcess := do
  let h ← currentHeap
  match h.processes.find? fun process => process.id = id with
  | some process => pure process
  | none => undefinedBehavior

-- The object behind `session->`, `ffmpeg->` or `probe_ffmpeg->`.
def derefSession : Program Pipeline Tick Exn VideoSession := do
  let h ← currentHeap
  match h.session with
  | some id => sessionAt id
  | none => undefinedBehavior

def deref (s : Slot) : Program Pipeline Tick Exn FfmpegProcess := do
  let h ← currentHeap
  match h.slot s with
  | some id => processAt id
  | none => undefinedBehavior

def sdkCall (id : Nat) (call : Tick → VideoSession → SdkCall)
    (keep : Tick → VideoSession → VideoSession) : Program Pipeline Tick Exn Tick := do
  let answer ← onEnv observe
  let session ← sessionAt id
  updateHeap fun h => h.monitorsCall answer.monitorCalls
  updateHeap fun h => (h.recordSdk id (call answer session)).mapSession id (keep answer)
  pure answer

-- A call that is given the user id or the handle of the session.
def useUser (id : Nat) : Program Pipeline Tick Exn Tick :=
  sdkCall id (fun _ session => .useUser session.user) fun _ session => session

def useHandle (id : Nat) : Program Pipeline Tick Exn Tick :=
  sdkCall id (fun _ session => .useHandle session.handle) fun _ session => session

-- `monitor_.join()`, before which the monitor may be about to call.
def joinMonitor (id : Nat) : Program Pipeline Tick Exn Unit := do
  let answer ← onEnv observe
  updateHeap fun h => h.monitorsCall answer.monitorCalls
  updateHeap fun h => h.mapSession id fun session => { session with monitor := false }

-- `NET_DVR_StopRealPlay` or `NET_DVR_StopPlayBack`
def stopStream (id : Nat) : Program Pipeline Tick Exn Unit := do
  let _ ← sdkCall id (fun _ session => .stopStream v.request.option session.handle)
    fun _ session => { session with handle := -1 }

def logout (id : Nat) : Program Pipeline Tick Exn Unit := do
  let _ ← sdkCall id (fun _ session => .logout session.user)
    fun _ session => { session with user := -1 }

-- `std::make_unique<HcSession>(request, config, check_client)`
def constructSession : Program Pipeline Tick Exn Nat := do
  let _ ← onEnv external
  let h ← currentHeap
  updateHeap fun h => h.newSession
  let _ ← onEnv observe
  pure h.fresh

-- `HcSession::~HcSession` with `stop`
def destroySession (id : Nat) : Program Pipeline Tick Exn Unit := do
  let _ ← onEnv observe
  let session ← sessionAt id
  joinMonitor id
  (if 0 ≤ session.handle then stopStream v id else pure ())
  (if 0 ≤ session.user then logout id else pure ())
  onEnv (logLineNoexcept v)
  updateHeap fun h => h.freeSession id

def resetSession : Program Pipeline Tick Exn Unit := do
  let h ← currentHeap
  match h.session with
  | none => pure ()
  | some id => do
    updateHeap fun h => { h with session := none }
    destroySession v id

-- `session = std::make_unique<HcSession>(request, config, check_client)`
def makeSession : Program Pipeline Tick Exn Unit := do
  let id ← constructSession
  let h ← currentHeap
  updateHeap fun h => { h with session := some id }
  match h.session with
  | none => pure ()
  | some old => destroySession v old

def unreachableNvr : BridgeError :=
  { httpStatus := 502
    code := "NVR_UNREACHABLE"
    message := "无法连接 NVR " ++ v.request.ip ++ ":" ++ toString v.request.port
      ++ " 的 SDK 端口；请检查设备 IP、SDK 端口、网络连通性或防火墙。" }

def loginError (error : Int) : BridgeError :=
  if error = 7 then
    unreachableNvr v
  else
    { httpStatus := 502
      code := "SDK_LOGIN_FAILED"
      message := "NVR 登录失败：HCNetSDK 错误=" ++ toString error
        ++ "。请检查用户名、密码、设备状态和登录权限。" }

def sdkStreamTimeout : BridgeError :=
  ⟨504, "SDK_STREAM_TIMEOUT", "等待 HCNetSDK 视频数据超时"⟩

def mediaQueueOverflow : BridgeError :=
  ⟨502, "MEDIA_QUEUE_OVERFLOW", "HCNetSDK 媒体队列超过背压限制"⟩

-- `byVideoEncType`
def codecOfEncType (encType : Int) : DetectedVideoCodec :=
  if encType = 10 then .H265
  else if encType = 0 ∨ encType = 1 then .H264
  else .Unknown

def setConfiguredVideoCodec (id : Nat) (encType : Int) : Program Pipeline Tick Exn Unit := do
  updateHeap fun h => h.mapSession id fun session =>
    { session with configuredVideoCodec := codecOfEncType encType }
  onEnv (logLine v)

def readVideoStreamConfiguration (id : Nat) : Program Pipeline Tick Exn Unit := do
  let setsInterval :=
    v.request.option == .RealPlay && decide (0 < v.realplayKeyframeIntervalFrames)
  if !v.readVideoCodecFromDevice && !setsInterval then
    pure ()
  else do
    -- `NET_DVR_GetDVRConfig`
    let compression ← useUser id
    if compression.refuses then
      onEnv (logLine v)
    else do
      (if v.readVideoCodecFromDevice then setConfiguredVideoCodec v id compression.count else pure ())
      let interval := compression.interval
      if !setsInterval then
        pure ()
      else if interval ≠ 0 ∧ interval ≠ 0xfffe ∧ interval ≤ v.realplayKeyframeIntervalFrames % 65536 then
        pure ()
      else do
        -- `NET_DVR_SetDVRConfig`
        let _ ← useUser id
        onEnv (logLine v)

-- `HcSession::prepare`
def prepare (id : Nat) : Program Pipeline Tick Exn Unit := do
  onEnv (checkRequest v)
  let session ← sessionAt id
  if session.prepared then
    pure ()
  else do
    -- `probe_nvr_endpoint`
    let _ ← onEnv external
    onEnv (checkRequest v)
    onEnv (logLine v)
    -- `NET_DVR_Login_V40`
    let login ← sdkCall id (fun answer _ => .login answer.sdkId) fun answer session =>
      { session with user := answer.sdkId }
    onEnv (checkRequest v)
    if login.refuses then
      Program.raise (.bridge (loginError v login.count))
    else do
      onEnv (logLine v)
      -- `NvrChannelTopology::read`
      let _ ← useUser id
      let _ ← onEnv external
      onEnv (checkRequest v)
      -- `topology_.resolve`
      let _ ← onEnv external
      onEnv (logLine v)
      readVideoStreamConfiguration v id
      onEnv (checkRequest v)
      updateHeap fun h => h.mapSession id fun session => { session with prepared := true }

def waitForFirstData : Program Pipeline Tick Exn Unit :=
  Program.iterate (fun _ => do
    -- `!first_data_ && !overflow_`
    let first ← onEnv observe
    if !first.refuses then
      pure (.inr ())
    else do
      onEnv (checkRequest v)
      let clock ← onEnv observe
      if clock.late then
        Program.raise (.bridge sdkStreamTimeout)
      else
        pure (.inl ())) ()

-- `sdk_error`
def sdkError (code api : String) (error : Int) : Exn :=
  .bridge ⟨502, code, api ++ " failed, HCNetSDK error=" ++ toString error⟩

-- `NET_DVR_RealPlay_V40` or `NET_DVR_PlayBackByTime_V40`
def openStream (id : Nat) (option : StreamOption) : Program Pipeline Tick Exn Tick :=
  sdkCall id (fun answer session => .openStream option session.user answer.sdkId)
    fun answer session => { session with handle := answer.sdkId }

-- `request_realplay_keyframe`
def requestRealplayKeyframe (id : Nat) : Program Pipeline Tick Exn Unit := do
  if !v.forceKeyframeOnRealplay then
    pure ()
  else do
    let _ ← useUser id
    onEnv (logLine v)

def startRealplay (id : Nat) : Program Pipeline Tick Exn Unit := do
  let preview ← openStream id .RealPlay
  if preview.refuses then
    Program.raise (sdkError "SDK_REALPLAY_FAILED" "NET_DVR_RealPlay_V40" preview.count)
  else do
    onEnv (logLine v)
    requestRealplayKeyframe v id

def control (id : Nat) : Program Pipeline Tick Exn Unit := do
  let answer ← useHandle id
  if answer.refuses then
    Program.raise (sdkError "SDK_PLAYBACK_CONTROL_FAILED" "NET_DVR_PlayBackControl_V40" answer.count)
  else
    pure ()

def controls (id : Nat) : Nat → Program Pipeline Tick Exn Unit
  | 0 => pure ()
  | steps + 1 => do
    control id
    controls id steps

def startPlayback (id : Nat) : Program Pipeline Tick Exn Unit := do
  let playback ← openStream id .Playback
  if playback.refuses then
    Program.raise (sdkError "SDK_PLAYBACK_FAILED" "NET_DVR_PlayBackByTime_V40" playback.count)
  else do
    let callback ← useHandle id
    if callback.refuses then
      Program.raise (sdkError "SDK_CALLBACK_FAILED" "NET_DVR_SetPlayDataCallBack_V40" callback.count)
    else do
      -- `NET_DVR_PLAYSTART`
      control id
      controls id v.speedSteps
      onEnv (logLine v)
      -- the constructor of the thread
      let _ ← onEnv external
      updateHeap fun h => h.mapSession id fun session => { session with monitor := true }

def startStream (id : Nat) : Program Pipeline Tick Exn Unit := do
  let _ ← onEnv external
  (match v.request.option with
  | .RealPlay => startRealplay v id
  | .Playback => startPlayback v id)
  updateHeap fun h => h.mapSession id fun session => { session with streamStarted := true }
  onEnv (logLine v)

def startStreamAndWaitForData (id : Nat) : Program Pipeline Tick Exn Unit := do
  prepare v id
  onEnv (checkRequest v)
  let session ← sessionAt id
  (if session.streamStarted then pure () else startStream v id)
  waitForFirstData v
  onEnv (checkRequest v)
  -- `overflow_`
  let overflow ← onEnv observe
  if overflow.refuses then
    Program.raise (.bridge mediaQueueOverflow)
  else
    onEnv (logLine v)

-- `session->start()`
def start : Program Pipeline Tick Exn Unit := do
  let session ← derefSession
  prepare v session.id
  startStreamAndWaitForData v session.id

-- `session->end_reason()`, which only the threads of the session change, and never back.
def endReason : Program Pipeline Tick Exn StreamEndReason := do
  let answer ← onEnv observe
  let session ← derefSession
  let sdkEnd := answer.sdkEnd.or session.sdkEnd
  updateHeap fun h => h.mapSession session.id fun session => { session with sdkEnd }
  match sdkEnd with
  | none => pure .Active
  | some sdkEnd => pure sdkEnd.reason

/-
`FfmpegProcess::stop_process`. Its argument `immediate` only picks the signal. The pump is joined
after the child is gone.
-/
def stopProcess (id : Nat) : Program Pipeline Tick Exn Unit := do
  let _ ← onEnv observe
  let process ← processAt id
  if process.stopRequested then
    pure ()
  else do
    updateHeap fun h => h.mapProcess id fun process => { process with stopRequested := true }
    let _ ← onEnv observe
    updateHeap fun h => h.mapProcess id fun process => { process with child := false }
    let _ ← onEnv observe
    updateHeap fun h => h.mapProcess id fun process => { process with pump := none }
    -- `close_input`, the reader of the diagnostics, the other handles
    let _ ← onEnv observe

-- `FfmpegProcess::~FfmpegProcess`
def destroyProcess (id : Nat) : Program Pipeline Tick Exn Unit := do
  stopProcess id
  let _ ← onEnv observe
  updateHeap fun h => h.freeProcess id

def startChild (id : Nat) : Program Pipeline Tick Exn Unit := do
  -- `start_linux` or `start_windows`
  let _ ← onEnv external
  updateHeap fun h => h.mapProcess id fun process => { process with child := true }
  -- the thread of `read_diagnostics`
  let _ ← onEnv external
  onEnv (logLine v)

-- `std::make_unique<FfmpegProcess>`. No destructor runs for an object whose constructor throws.
def constructProcess (outputMode : VideoOutputMode) (forceSoftware : Bool)
    : Program Pipeline Tick Exn Nat := do
  let _ ← onEnv external
  let h ← currentHeap
  let id := h.fresh
  updateHeap fun h => h.newProcess outputMode (v.selectPlan outputMode forceSoftware)
  Program.rescue
    (do
      onEnv (checkClient v)
      Program.rescue (startChild v id) fun exn => do
        stopProcess id
        Program.raise exn)
    fun exn => do
      updateHeap fun h => h.freeProcess id
      Program.raise exn
  pure id

def resetProcess (s : Slot) : Program Pipeline Tick Exn Unit := do
  let h ← currentHeap
  match h.slot s with
  | none => pure ()
  | some id => do
    updateHeap fun h => h.setSlot s none
    destroyProcess id

def assignProcess (s : Slot) (id : Option Nat) : Program Pipeline Tick Exn Unit := do
  let h ← currentHeap
  updateHeap fun h => h.setSlot s id
  match h.slot s with
  | none => pure ()
  | some old => destroyProcess old

def makeProcess (s : Slot) (outputMode : VideoOutputMode) (forceSoftware : Bool)
    : Program Pipeline Tick Exn Unit := do
  let id ← constructProcess v outputMode forceSoftware
  assignProcess s (some id)

-- `ffmpeg = std::move(probe_ffmpeg)`
def moveProbe : Program Pipeline Tick Exn Unit := do
  let h ← currentHeap
  updateHeap fun h => h.setSlot .probe none
  assignProcess .ffmpeg h.probeFfmpeg

-- `ffmpeg->start_pump(session->queue())`
def startPump (s : Slot) : Program Pipeline Tick Exn Unit := do
  let session ← derefSession
  let process ← deref s
  -- the constructor of the thread
  let _ ← onEnv external
  match process.pump with
  | some _ => Program.terminate
  | none => updateHeap fun h => h.mapProcess process.id fun process =>
      { process with pump := some session.id }

def stopForPipelineSwitch (s : Slot) : Program Pipeline Tick Exn Unit := do
  let process ← deref s
  stopProcess process.id

-- `ffmpeg->input_end_reason()`, which only the pump changes.
def inputEndReason : Program Pipeline Tick Exn StreamEndReason := do
  let answer ← onEnv observe
  let process ← deref .ffmpeg
  let inputTimedOut := answer.inputTimeout || process.inputTimedOut
  updateHeap fun h => h.mapProcess process.id fun process => { process with inputTimedOut }
  pure (if inputTimedOut then .SdkDataTimeout else .Active)

def received (id : Nat) (data : Bytes) : Program Pipeline Tick Exn (Option Bytes) := do
  updateHeap fun h => h.mapProcess id fun process =>
    { process with output := process.output ++ data, eof := process.eof || data.isEmpty }
  pure (some data)

def readOutputLinux (id size : Nat) : Program Pipeline Tick Exn (Option Bytes) := do
  let ready ← onEnv observe
  if ready.refuses then
    pure none
  else do
    let answer ← onEnv observe
    if answer.count < 0 then pure none else received id (answer.data.take size)

def readOutputWindows (id size : Nat) : Program Pipeline Tick Exn (Option Bytes) :=
  Program.iterate (fun _ => do
    let clock ← onEnv observe
    if clock.late then
      pure (.inr none)
    else do
      onEnv checkRunning
      onEnv (checkClient v)
      -- `PeekNamedPipe` and `ReadFile`, where a failure counts as the end
      let answer ← onEnv observe
      if !answer.refuses then do
        let data ← received id (answer.data.take size)
        pure (.inr data)
      else do
        -- `WaitForSingleObject(process_, 0)`
        let exited ← onEnv observe
        if !exited.refuses then do
          let data ← received id []
          pure (.inr data)
        else
          pure (.inl ())) ()

def readOutputTimeout (id size : Nat) : Program Pipeline Tick Exn (Option Bytes) :=
  if v.windows then readOutputWindows v id size else readOutputLinux id size

def ffmpegOutputTimeout : BridgeError :=
  ⟨504, "FFMPEG_OUTPUT_TIMEOUT", "FFmpeg 持续无输出，已结束会话"⟩

def ffmpegNoMediaFragment : BridgeError :=
  ⟨504, "FFMPEG_NO_MEDIA_FRAGMENT", "FFmpeg 已生成 fMP4 初始化段，但未生成首个 moof/mdat 媒体分片"⟩

def ffmpegNoMp4 : BridgeError := ⟨502, "FFMPEG_NO_MP4", "FFmpeg 未生成 fragmented MP4 初始化数据"⟩

def readRound (id : Nat) : Program Pipeline Tick Exn (Unit ⊕ Bytes) := do
  let running ← onEnv isRunning
  if !running then
    pure (.inr [])
  else do
    onEnv (checkClient v)
    let clock ← onEnv observe
    if clock.late then
      Program.raise (.bridge ffmpegOutputTimeout)
    else do
      let count ← readOutputTimeout v id 65536
      match count with
      | some data => pure (.inr data)
      | none => pure (.inl ())

-- `ffmpeg->read(buffer, sizeof(buffer))`
def read : Program Pipeline Tick Exn Bytes := do
  let process ← deref .ffmpeg
  Program.iterate (fun _ => readRound v process.id) ()

def initialized (result : Bytes) : Bool := containsAtom result "ftyp" && containsAtom result "moov"

def mediaReady (result : Bytes) (requireMediaFragment : Bool) : Bool :=
  initialized result
    && (!requireMediaFragment || (containsAtom result "moof" && containsAtom result "mdat"))

-- The loop of `read_until_ready`, with whether it returned from within.
def readLoop (id : Nat) (result : Bytes) (requireMediaFragment : Bool)
    : Program Pipeline Tick Exn (Bool × Bytes) :=
  Program.iterate (fun result => do
    let clock ← onEnv observe
    if clock.late || decide (result.length ≥ 4 * 1024 * 1024) then
      pure (.inr (false, result))
    else do
      onEnv checkRunning
      onEnv (checkClient v)
      let readSize ← readOutputTimeout v id 32768
      match readSize with
      | none => pure (.inl result)
      | some [] => pure (.inr (false, result))
      | some data =>
        let result := result ++ data
        if mediaReady result requireMediaFragment then
          pure (.inr (true, result))
        else
          pure (.inl result)) result

def readUntilReady (s : Slot) (result : Bytes) (requireMediaFragment : Bool)
    : Program Pipeline Tick Exn Bytes := do
  let process ← deref s
  let (ready, result) ← readLoop v process.id result requireMediaFragment
  if ready then
    pure result
  else if requireMediaFragment && initialized result then
    Program.raise (.bridge ffmpegNoMediaFragment)
  else
    Program.raise (.bridge ffmpegNoMp4)

def readInitial : Program Pipeline Tick Exn Bytes := readUntilReady v .probe [] false

def readFirstMedia (initialMp4 : Bytes) : Program Pipeline Tick Exn Bytes :=
  readUntilReady v .ffmpeg initialMp4 true

end Pipeline
end HikBridge
