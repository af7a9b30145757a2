import HikBridge.Video.Pipeline

/-!
This module contains the part of `handle_video` that builds the pipeline, from the first session up to
the first media fragment, with its fallbacks. Its result holds the prefix that was read from the
FFmpeg process which will deliver the stream.
-/

namespace HikBridge.Pipeline

variable (v : Setting)

-- The local variables that a pipeline which delivers has: `detected_codec`, `output_mode`, `prefix`.
structure Output where
  codec : DetectedVideoCodec
  mode : VideoOutputMode
  initialMp4 : Bytes

structure Detection where
  codec : DetectedVideoCodec
  initialMp4 : Bytes := []
  restartSessionAfterProbe : Bool := false

def openSession : Program Pipeline Tick Exn Unit := do
  makeSession v
  let session ← derefSession
  prepare v session.id

def probeCodec : Program Pipeline Tick Exn Detection := do
  onEnv (logLine v)
  start v
  makeProcess v .probe .Copy false
  startPump .probe
  let probePrefix ← readInitial v
  let codec := detectVideoCodec probePrefix
  onEnv (logLine v)
  -- `codec_cache.set`
  let _ ← onEnv external
  if codec = .H264 then
    if v.h264CopyAllowed then do
      moveProbe
      onEnv (logLine v)
      pure { codec, initialMp4 := probePrefix }
    else
      pure { codec, restartSessionAfterProbe := true }
  else
    pure { codec }

def detectCodec : Program Pipeline Tick Exn Detection := do
  openSession v
  -- `codec_cache.try_get`
  let cached ← onEnv external
  if cached.codec ≠ .Unknown then do
    onEnv (logLine v)
    pure { codec := cached.codec }
  else do
    let session ← derefSession
    if session.configuredVideoCodec ≠ .Unknown then do
      let _ ← onEnv external
      onEnv (logLine v)
      pure { codec := session.configuredVideoCodec }
    else
      probeCodec v

def stopAndReset (s : Slot) : Program Pipeline Tick Exn Unit := do
  stopForPipelineSwitch s
  resetProcess s

def stopProbe : Program Pipeline Tick Exn Unit := do
  let h ← currentHeap
  if h.probeFfmpeg.isSome then do
    stopAndReset .probe
    onEnv (logLine v)
  else
    pure ()

def restartSession : Program Pipeline Tick Exn Unit := do
  resetSession v
  openSession v

def restartSessionAfterProbe : Program Pipeline Tick Exn Unit := do
  restartSession v
  onEnv (logLine v)

def ensureSession : Program Pipeline Tick Exn Unit := do
  let h ← currentHeap
  (if h.session.isNone then openSession v else pure ())
  let session ← derefSession
  if session.streamStarted then pure () else start v

-- The lambda `start_pipeline`.
def startPipeline (codec : DetectedVideoCodec) (mode : VideoOutputMode) (forceSoftware : Bool)
    : Program Pipeline Tick Exn Bytes := do
  let useSoftware := forceSoftware || codec != .H265
  makeProcess v .ffmpeg mode useSoftware
  startPump .ffmpeg
  readFirstMedia v []

-- What both `catch` clauses around a transcoding `start_pipeline` do.
def softwareFallback (codec : DetectedVideoCodec) (mode : VideoOutputMode) (error : BridgeError)
    : Program Pipeline Tick Exn Bytes := do
  let h ← currentHeap
  if h.ffmpeg.isNone then
    Program.raise (.bridge error)
  else do
    let process ← deref .ffmpeg
    if !process.hardwareEnabled then
      Program.raise (.bridge error)
    else do
      onEnv (logLine v)
      stopAndReset .ffmpeg
      startPipeline v codec mode true

def openOutput (codec : DetectedVideoCodec) (mode : VideoOutputMode) (initialMp4 : Bytes)
    : Program Pipeline Tick Exn (Option Bytes) := do
  let h ← currentHeap
  if h.ffmpeg.isSome then
    Program.rescue
      (do
        let initialMp4 ← readFirstMedia v initialMp4
        pure (some initialMp4))
      fun
        | .bridge error =>
          if mode ≠ .Copy then
            Program.raise (.bridge error)
          else do
            onEnv (logLine v)
            pure none
        | exn => Program.raise exn
  else
    Program.rescue
      (do
        let initialMp4 ← startPipeline v codec mode false
        pure (some initialMp4))
      fun
        | .bridge error =>
          if mode = .Copy then do
            onEnv (logLine v)
            pure none
          else do
            let initialMp4 ← softwareFallback v codec mode error
            pure (some initialMp4)
        | exn => Program.raise exn

-- The warning shows the diagnostics of the process.
def stopFailedCopy : Program Pipeline Tick Exn Unit := do
  let _ ← deref .ffmpeg
  onEnv (logLine v)
  stopAndReset .ffmpeg

def copyFallback (codec : DetectedVideoCodec) : Program Pipeline Tick Exn Bytes := do
  let h ← currentHeap
  (if h.ffmpeg.isSome then stopFailedCopy v else pure ())
  restartSession v
  start v
  let initialMp4 ← startPipeline v codec .H264Transcode true
  onEnv (logLine v)
  pure initialMp4

-- The configuration said H.264 and the initialization segment says H.265.
def codecMismatch : Program Pipeline Tick Exn Bytes := do
  onEnv (logLine v)
  -- `codec_cache.set`
  let _ ← onEnv external
  stopAndReset .ffmpeg
  Program.rescue (startPipeline v .H265 .H264Transcode false) fun
    | .bridge error => softwareFallback v .H265 .H264Transcode error
    | exn => Program.raise exn

def outputMode (codec : DetectedVideoCodec) : VideoOutputMode :=
  if codec == .H264 && v.h264CopyAllowed then .Copy else .H264Transcode

-- What follows the detection of the codec.
def setupDetected (detection : Detection) : Program Pipeline Tick Exn Output := do
  let mode := outputMode v detection.codec
  onEnv (logLine v)
  (if detection.codec == .H264 && v.linuxH264PlaybackTranscodePolicy then
    onEnv (logLine v)
  else
    pure ())
  stopProbe v
  (if detection.restartSessionAfterProbe then restartSessionAfterProbe v else pure ())
  ensureSession v
  let opened ← openOutput v detection.codec mode detection.initialMp4
  match opened with
  | none => do
    let initialMp4 ← copyFallback v detection.codec
    pure { codec := detection.codec, mode := .H264Transcode, initialMp4 }
  | some initialMp4 =>
    if mode = .Copy ∧ detectVideoCodec initialMp4 = .H265 then do
      let initialMp4 ← codecMismatch v
      pure { codec := .H265, mode := .H264Transcode, initialMp4 }
    else
      pure { codec := detection.codec, mode, initialMp4 }

def setup : Program Pipeline Tick Exn Output := do
  let detection ← detectCodec v
  setupDetected v detection

end HikBridge.Pipeline
