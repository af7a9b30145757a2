import HikBridge.Video.InitialMp4
import HikBridge.Lib.Program

/-!
This module contains `HandleVideo` of the C# bridge with the objects that it constructs: the FFmpeg of
the codec probe, the one of the output and the one that replaces it. Every statement that can throw is
answered by the environment.
-/

namespace HikBridge
namespace NetBridge

open Program

/--
The exceptions that `Handle` and `HandleVideo` tell apart.
-/
inductive Thrown where
  | bridge (error : BridgeError)
  | httpListener (errorCode nativeErrorCode : Int)
  | io
  | ioBecause (inner : Thrown)
  | objectDisposed
  | other
  deriving DecidableEq, Repr

def isClientDisconnect : Thrown → Bool
  | .httpListener errorCode nativeErrorCode =>
    errorCode = 64 || errorCode = 995 || errorCode = 1229 || nativeErrorCode = 64
  | .ioBecause inner => isClientDisconnect inner
  | .objectDisposed => true
  | .bridge _ | .io | .other => false

inductive ChildState where
  | running
  | exited
  | killed
  deriving DecidableEq, Repr

/--
A `FfmpegProcess` whose constructor has returned, with the child that it started. `output` is what has
been read of its output since then, and `audioReported` says that a line of its log has named sound.
-/
structure FfmpegChild extends FfmpegProcess where
  output : Bytes := []
  audioReported : Bool := false
  child : ChildState := .running
  processStopped : Bool := false
  disposed : Bool := false
  ended : processStopped = true → child ≠ .running := by simp

structure CodecProbe where
  ffmpeg : Option FfmpegChild
  initialMp4 : Bytes
  codec : DetectedVideoCodec

structure NetSession where
  configuredVideoCodec : DetectedVideoCodec := .Unknown
  streamStarted : Bool := false
  disposed : Bool := false

structure QueueStats where
  current : Int := 0
  peak : Int := 0
  backpressure : Int := 0
  deriving DecidableEq, Repr

inductive StatusCall where
  | setActive
  | setOutputReady
  | setEnded (reason message : String) (queue : QueueStats)
  deriving DecidableEq, Repr

structure VideoResponse where
  headers : List (String × Bytes)
  body : Bytes := []

/--
The variables of `HandleVideo` and of `StartCodecProbe`, and what they have done to the registries.
`starting` is the child of a constructor that has not returned, `dropped` holds the objects that no
variable refers to any more, and `cleanupThrew` says that a statement of the `finally` block threw.
-/
structure VideoRun where
  slotHeld : Bool := false
  statuses : List StatusCall := []
  session : Option NetSession := none
  starting : Bool := false
  probing : Option FfmpegChild := none
  probe : Option CodecProbe := none
  ffmpeg : Option FfmpegChild := none
  dropped : List FfmpegChild := []
  endReason : String := "active"
  endMessage : String := ""
  response : Option VideoResponse := none
  cleanupThrew : Bool := false

structure VideoAnswer where
  thrown : Option Thrown := none
  ok : Bool := true
  codec : Option DetectedVideoCodec := none
  reads : List Bytes := []
  after : OutputEnd := .closed
  data : Bytes := []
  errorText : List Char := []
  audioLine : Bool := false
  stopRequested : Bool := false
  exited : Bool := false
  sessionEndReason : String := "active"
  inputEndReason : String := "active"
  queue : QueueStats := {}

abbrev Video := Program VideoRun VideoAnswer Thrown

def bridgeStatement : Video VideoAnswer := do
  let a ← ask
  match a.thrown with
  | some e => raise e
  | none => pure a

def fromFramework : Thrown → Thrown
  | .bridge _ => .other
  | e => e

def statement : Video VideoAnswer := do
  let a ← ask
  match a.thrown with
  | some e => raise (fromFramework e)
  | none => pure a

-- A line of the log. `Console.WriteLine` is outside of the `try` of `Log.Write`.
def log : Video Unit := do
  let _ ← statement

def ffmpegNotFound : BridgeError := ⟨500, "FFMPEG_NOT_FOUND", "ffmpeg executable not found"⟩

def ffmpegStartFailed : BridgeError := ⟨500, "FFMPEG_START_FAILED", "could not start ffmpeg"⟩

namespace FfmpegChild

variable (p : FfmpegChild)

def received (a : VideoAnswer) : FfmpegChild :=
  { p with
    errorText := a.errorText
    outputHasAudio := p.outputHasAudio || (p.audioRequested && a.audioLine)
    audioReported := p.audioReported || a.audioLine }

def inspected (initialMp4 : Bytes) : FfmpegChild :=
  { p with
    toFfmpegProcess := p.toFfmpegProcess.inspectInitialMp4 initialMp4
    output := initialMp4 }

/--
`StopProcess` up to the line that it logs. `Kill` fails only for a child that is ending.
-/
def stopped (immediate : Bool) (a : VideoAnswer) : FfmpegChild :=
  { p with
    processStopped := true
    child :=
      if a.exited then .exited
      else if immediate then .killed
      -- `WaitForExit(1500)`
      else if a.ok then .exited
      else .killed
    ended := by
      intro _
      repeat' split
      all_goals exact nofun }

def hasExited (a : VideoAnswer) : Bool := p.disposed || a.exited

end FfmpegChild

def stopProcess (p : FfmpegChild) (immediate : Bool) (store : FfmpegChild → VideoRun → VideoRun)
    : Video Unit :=
  if p.processStopped then
    pure ()
  else do
    let a ← ask
    update (store (p.stopped immediate a))
    log

def dispose (p : FfmpegChild) (store : FfmpegChild → VideoRun → VideoRun) : Video Unit :=
  if p.disposed then
    pure ()
  else do
    update (store { p with disposed := true })
    stopProcess { p with disposed := true } false store

def setProbing (p : FfmpegChild) (s : VideoRun) : VideoRun := { s with probing := some p }

def VideoRun.probeFfmpeg (s : VideoRun) : Option FfmpegChild := s.probe.bind CodecProbe.ffmpeg

def setProbe (p : FfmpegChild) (s : VideoRun) : VideoRun :=
  { s with probe := s.probe.map fun probe => { probe with ffmpeg := some p } }

def setFfmpeg (p : FfmpegChild) (s : VideoRun) : VideoRun := { s with ffmpeg := some p }

def assignFfmpeg (p : FfmpegChild) (s : VideoRun) : VideoRun :=
  { s with ffmpeg := some p, dropped := s.ffmpeg.toList ++ s.dropped }

def dropProbe (s : VideoRun) : VideoRun :=
  { s with
    probe := none
    dropped := s.probeFfmpeg.toList ++ s.dropped }

def unlessNull (get : VideoRun → Option FfmpegChild) (use : FfmpegChild → Video Unit) : Video Unit := do
  let s ← inspect
  match get s with
  | some p => use p
  | none => pure ()

section

variable (v : StreamRequest) (enableAudio : Bool)

def newFfmpegProcess (mode : VideoOutputMode) (assign : FfmpegChild → VideoRun → VideoRun)
    : Video Unit := do
  let file ← statement
  if file.ok then
    let started ← statement
    if started.ok then
      update fun s => { s with starting := true }
      -- `BeginErrorReadLine`
      let _ ← statement
      log
      update fun s =>
        assign { audioRequested := enableAudio && v.speedIsOne, videoOutputMode := mode }
          { s with starting := false }
    else
      raise (.bridge ffmpegStartFailed)
  else
    raise (.bridge ffmpegNotFound)

def prepare : Video Unit := do
  let a ← bridgeStatement
  update fun s =>
    { s with session := some { configuredVideoCodec := a.codec.getD .Unknown } }

def sessionStart : Video Unit := do
  let _ ← bridgeStatement
  update fun s => { s with session := s.session.map fun session => { session with streamStarted := true } }

def readInitial (p : FfmpegChild) (store : FfmpegChild → VideoRun → VideoRun) : Video Bytes := do
  let a ← statement
  let p := p.received a
  match p.readInitialMp4 a.after [] a.reads with
  | .ok initialMp4 =>
    update (store (p.inspected initialMp4))
    pure initialMp4
  | .error error => raise (.bridge error)

def deref (get : VideoRun → Option FfmpegChild) : Video FfmpegChild := do
  let s ← inspect
  match get s with
  | some p => pure p
  | none => raise .other

def startCodecProbe : Video DetectedVideoCodec :=
  rescue
    (do
      newFfmpegProcess v enableAudio .Copy setProbing
      log
      sessionStart
      -- `StartInput`
      let _ ← statement
      let initialMp4 ← deref VideoRun.probing >>= fun p => readInitial p setProbing
      log
      let p ← deref VideoRun.probing
      update fun s =>
        { s with probing := none, probe := some ⟨some p, initialMp4, p.detectedVideoCodec⟩ }
      pure p.detectedVideoCodec)
    fun e => do
      unlessNull VideoRun.probing fun p => dispose p setProbing
      raise e

def detectCodec : Video DetectedVideoCodec := do
  let cached ← statement
  match cached.codec with
  | some codec =>
    log
    pure codec
  | none =>
    let s ← inspect
    match s.session with
    | none => raise .other
    | some session =>
      if session.configuredVideoCodec = .Unknown then
        let codec ← startCodecProbe v enableAudio
        -- `_codecCache.Set`
        let _ ← statement
        pure codec
      else
        let _ ← statement
        log
        pure session.configuredVideoCodec

def startOutput (mode : VideoOutputMode) : Video Bytes := do
  newFfmpegProcess v enableAudio mode assignFfmpeg
  -- `StartInput`
  let _ ← statement
  deref VideoRun.ffmpeg >>= fun p => readInitial p setFfmpeg

def stopProbe : Video Unit := do
  let s ← inspect
  if s.probe.isSome then
    unlessNull VideoRun.probeFfmpeg fun p => stopProcess p true setProbe
    unlessNull VideoRun.probeFfmpeg fun p => dispose p setProbe
    update dropProbe
    log
  else
    pure ()

def startSession : Video Unit := do
  let s ← inspect
  if (s.session.map NetSession.streamStarted).getD false then
    pure ()
  else
    sessionStart

def firstOutput (mode : VideoOutputMode) : Video Bytes := do
  let s ← inspect
  match mode, s.probe with
  | .Copy, some probe =>
    update fun s =>
      { s with
        ffmpeg := probe.ffmpeg
        dropped := s.ffmpeg.toList ++ s.dropped
        probe := none }
    log
    pure probe.initialMp4
  | _, _ =>
    stopProbe
    log
    startSession
    startOutput v enableAudio mode

def correctOutput (mode : VideoOutputMode) (initialMp4 : Bytes) : Video Bytes := do
  let p ← deref VideoRun.ffmpeg
  if mode = .Copy ∧ p.detectedVideoCodec = .H265 then
    log
    -- `_codecCache.Set`
    let _ ← statement
    stopProcess p true setFfmpeg
    let p ← deref VideoRun.ffmpeg
    dispose p setFfmpeg
    startOutput v enableAudio .H264Transcode
  else
    pure initialMp4

def playbackTime (seconds : Int) : Bytes :=
  match v.option with
  | .Playback => Bytes.ofInt seconds
  | .RealPlay => []

-- The characters that `Uri.EscapeDataString` leaves as they are.
def isUnreserved (c : UInt8) : Bool :=
  (48 ≤ c && c ≤ 57) || (65 ≤ c && c ≤ 90) || (97 ≤ c && c ≤ 122)
    || c == 45 || c == 46 || c == 95 || c == 126

def escapeDataString (text : Bytes) : Bytes :=
  let digit : UInt8 → UInt8 := fun value => if value < 10 then 48 + value else 55 + value
  text.flatMap fun c => if isUnreserved c then [c] else [37, digit (c / 16), digit (c % 16)]

def videoHeaders (p : FfmpegChild) : List (String × Bytes) :=
  [("Content-Type", Bytes.lit "video/mp4"),
    ("Cache-Control", Bytes.lit "no-store, no-cache"),
    ("Accept-Ranges", Bytes.lit "none"),
    ("X-Hik-Bridge-Mse-Codecs", p.mseCodecs),
    ("X-Hik-Bridge-Video-Codec", Bytes.lit "h264"),
    ("X-Hik-Bridge-Playback-Start", playbackTime v v.startTime),
    ("X-Hik-Bridge-Playback-End", playbackTime v v.endTime),
    ("X-Hik-Bridge-Session-Id", v.sid),
    ("X-Hik-Bridge-Session-Status-Url", Bytes.lit "/session-status?sid=" ++ escapeDataString v.sid)]

/--
`WriteAsync` and `FlushAsync`. A write that throws hands over nothing more.
-/
def write (data : Bytes) : Video Unit := do
  let _ ← statement
  update fun s =>
    { s with response := s.response.map fun response => { response with body := response.body ++ data } }
  let _ ← statement

def equalsIgnoreCase (a b : String) : Bool := a.toLower = b.toLower

def resolveEndReason (s : VideoRun) (a : VideoAnswer) : String :=
  if s.session.isSome && !equalsIgnoreCase a.sessionEndReason "active" then
    a.sessionEndReason
  else
    match s.ffmpeg with
    | some p =>
      if !equalsIgnoreCase a.inputEndReason "active" then a.inputEndReason
      else if p.hasExited a then "ffmpeg_exit"
      else "stream_ended"
    | none => "stream_ended"

def netEndReasonMessage (reason : String) : String :=
  match reason with
  | "playback_end" => "回放已到达请求的结束时间"
  | "queue_overflow" => "HCNetSDK 媒体队列在限定背压后仍持续满载"
  | "sdk_data_timeout" => "HCNetSDK 未继续输出媒体数据"
  | "sdk_keepalive_failed" => "HCNetSDK 回放保活连续失败"
  | "ffmpeg_exit" => "FFmpeg 在视频结束前退出"
  | "playback_position_error" => "HCNetSDK 回放位置状态异常"
  | "client_replaced" => "浏览器主动停止或替换了视频流"
  | "server_stopped" => "桥接服务正在停止"
  | _ => "视频流异常结束"

def setEnd (reason message : String) (s : VideoRun) : VideoRun :=
  { s with endReason := reason, endMessage := message }

def delivered (data : Bytes) (s : VideoRun) : VideoRun :=
  { s with ffmpeg := s.ffmpeg.map fun p => { p with output := p.output ++ data } }

def transmitRound (_ : Unit) : Video (Unit ⊕ Unit) := do
  let a ← ask
  if a.stopRequested then
    pure (.inr ())
  else
    let read ← statement
    if read.data = [] then
      let s ← inspect
      let reason := resolveEndReason s read
      update (setEnd reason (netEndReasonMessage reason))
      pure (.inr ())
    else
      update (delivered read.data)
      write read.data
      pure (.inl ())

def transmit (initialMp4 : Bytes) : Video Unit := do
  log
  update fun s => { s with statuses := s.statuses ++ [.setOutputReady] }
  let p ← deref VideoRun.ffmpeg
  let a ← statement
  update (setFfmpeg (p.received a))
  update fun s => { s with response := some { headers := videoHeaders v (p.received a) } }
  write initialMp4
  iterate transmitRound ()

def body : Video Unit := do
  -- the constructor of the session
  let _ ← statement
  update fun s => { s with session := some {} }
  prepare
  let codec ← detectCodec v enableAudio
  let mode : VideoOutputMode := if v.speedIsOne ∧ codec = .H264 then .Copy else .H264Transcode
  log
  let initialMp4 ← firstOutput v enableAudio mode
  let initialMp4 ← correctOutput v enableAudio mode initialMp4
  transmit v initialMp4

def catches (e : Thrown) : Video Unit :=
  if isClientDisconnect e then do
    update (setEnd "client_replaced" "浏览器主动停止或替换了视频流")
    log
  else
    match e with
    | .bridge _ => do
      update (setEnd "startup_failed" "Bridge 建流失败")
      raise e
    | _ => raise e

def finish : Video Unit := do
  let a ← ask
  update fun s =>
    if s.endReason = "active" then
      let reason := if a.stopRequested then "server_stopped" else resolveEndReason s a
      setEnd reason (netEndReasonMessage reason) s
    else
      s
  update fun s =>
    { s with
      statuses := s.statuses
        ++ [.setEnded s.endReason s.endMessage (if s.session.isSome then a.queue else {})] }
  log
  unlessNull VideoRun.probeFfmpeg fun p => dispose p setProbe
  unlessNull VideoRun.ffmpeg fun p => dispose p setFfmpeg
  update fun s => { s with session := s.session.map fun session => { session with disposed := true } }
  log

def handleVideo : Video Unit := do
  -- `Reserve`
  let _ ← bridgeStatement
  update fun s => { s with slotHeld := true }
  ensuring
    (do
      update fun s => { s with statuses := s.statuses ++ [.setActive] }
      ensuring (rescue (body v enableAudio) catches)
        (rescue finish fun e => do
          update fun s => { s with cleanupThrew := true }
          raise e))
    (update fun s => { s with slotHeld := false })

end

theorem keeps_bridgeStatement {I : VideoRun → Prop} : Keeps I bridgeStatement := by
  apply keeps_bind keeps_ask
  intro a
  cases h : a.thrown with
  | some e => exact keeps_raise
  | none => exact keeps_pure

theorem keeps_statement {I : VideoRun → Prop} : Keeps I statement := by
  apply keeps_bind keeps_ask
  intro a
  cases h : a.thrown with
  | some e => exact keeps_raise
  | none => exact keeps_pure

theorem keeps_log {I : VideoRun → Prop} : Keeps I log :=
  keeps_bind keeps_statement fun _ => keeps_pure

end NetBridge
end HikBridge
