import HikBridge.Http.ReadHttpRequest
import HikBridge.Lib.Signed

/-!
This module contains the reader of `config.json`: the searches that find a section and a value in the
text, the conversions of a value, and `load_config` with its defaults and checks.
-/

namespace HikBridge

def Bytes.stoi (text : Bytes) : Option Int :=
  match stoll text with
  | none => none
  | some n => if Signed.Fits n then some n else none

def nameKey (name : Bytes) : Bytes := 34 :: (name ++ [34])

/--
The text before the brace that closes a section. `prev` is the byte before the text, which is all
that is looked at to tell an escaped quote.
-/
def sectionBody (prev : UInt8) (depth : Nat) (quoted : Bool) : Bytes → Option Bytes
  | [] => none
  | c :: rest =>
    let quoted := if c = 34 ∧ prev ≠ 92 then !quoted else quoted
    if quoted then
      (sectionBody c depth quoted rest).map (c :: ·)
    else if c = 123 then
      (sectionBody c (depth + 1) quoted rest).map (c :: ·)
    else if c = 125 then
      if depth = 1 then some [] else (sectionBody c (depth - 1) quoted rest).map (c :: ·)
    else
      (sectionBody c depth quoted rest).map (c :: ·)

def jsonSection (json name : Bytes) : Bytes :=
  match Search.cut (nameKey name) json with
  | none => []
  | some (_, rest) =>
    match rest.dropWhile (· != 123) with
    | [] => []
    | open' :: rest => (sectionBody open' 1 false rest).getD []

-- `find_first_of(",}\r\n")`
def endsScalar (c : UInt8) : Bool := c == 44 || c == 125 || c == 13 || c == 10

def scalarAt : Bytes → Option Bytes
  | [] => none
  | 34 :: rest => if 34 ∈ rest then some (rest.takeWhile (· != 34)) else none
  | text => some (trim (text.takeWhile fun c => !endsScalar c))

def jsonValue (section' name : Bytes) : Option Bytes :=
  match Search.cut (nameKey name) section' with
  | none => none
  | some (_, rest) =>
    match rest.dropWhile (· != 58) with
    | [] => none
    | _ :: rest => scalarAt (rest.dropWhile Bytes.isSpace)

def invalidConfig (message : String) : BridgeError := ⟨500, "INVALID_CONFIG", message⟩

def jsonInt (section' : Bytes) (name : String) (fallback : Int) : Except BridgeError Int :=
  match jsonValue section' (Bytes.lit name) with
  | none => .ok fallback
  | some value =>
    match Bytes.stoi value with
    | some n => .ok n
    | none => .error (invalidConfig ("配置项不是有效整数：" ++ name))

def jsonBool (section' : Bytes) (name : String) (fallback : Bool) : Except BridgeError Bool :=
  match jsonValue section' (Bytes.lit name) with
  | none => .ok fallback
  | some value =>
    if value = Bytes.lit "true" then .ok true
    else if value = Bytes.lit "false" then .ok false
    else .error (invalidConfig ("配置项不是有效布尔值：" ++ name))

def jsonString (section' : Bytes) (name : String) (fallback : Bytes) : Bytes :=
  (jsonValue section' (Bytes.lit name)).getD fallback

-- Paths are the strings that name them.
structure Config where
  bind : Bytes := Bytes.lit "127.0.0.1"
  port : Int := 28080
  maxSessions : Int := 16
  maxHttpConnections : Int := 64
  sdkDirectory : Bytes := Bytes.lit "../sdk"
  readVideoCodecFromDevice : Bool := true
  forceKeyframeOnRealplay : Bool := true
  realplayKeyframeIntervalFrames : Int := 25
  connectProbeTimeoutMs : Int := 1500
  ffmpegPath : Bytes := Bytes.lit "/usr/bin/ffmpeg"
  ffmpegLogLevel : Bytes := Bytes.lit "info"
  hardwareAcceleration : Bytes := Bytes.lit "auto"
  hardwareProbeTimeoutMs : Int := 3000
  logDirectory : Bytes := Bytes.lit "../logs"
  logRetentionDays : Int := 30
  queueBytes : Int := 67108864
  queueBackpressureMs : Int := 500
  maxPlaybackSeconds : Int := 86400
  sdkStartMs : Int := 10000
  firstMediaMs : Int := 15000
  noSdkDataMs : Int := 10000
  outputStallMs : Int := 60000
  clientWriteStallMs : Int := 60000
  playbackKeepAliveMs : Int := 1500
  outputVideoCodec : Bytes := Bytes.lit "h264"
  videoEncoder : Bytes := Bytes.lit "libx264"
  videoPreset : Bytes := Bytes.lit "veryfast"
  enableAudio : Bool := false
  codecCacheSeconds : Int := 900
  codecCacheFile : Bytes := Bytes.lit "../state/video-codec-cache.tsv"
  deriving DecidableEq, Repr

/--
What the host adds to a configuration: how it resolves a path against the directory of `config.json`,
and the three overrides of its environment.
-/
structure ConfigHost where
  isRelative : Bytes → Bool
  absolute : Bytes → Bytes
  sdkOverride : Option Bytes
  ffmpegOverride : Option Bytes
  logOverride : Option Bytes

namespace ConfigHost

def resolve (host : ConfigHost) (path : Bytes) : Bytes :=
  if host.isRelative path then host.absolute path else path

end ConfigHost

namespace Config

def hardwareAccelerations : List Bytes :=
  [Bytes.lit "auto", Bytes.lit "off", Bytes.lit "none", Bytes.lit "disabled", Bytes.lit "software",
    Bytes.lit "nvidia", Bytes.lit "nvenc", Bytes.lit "cuda", Bytes.lit "qsv", Bytes.lit "intel",
    Bytes.lit "amf", Bytes.lit "amd"]

def valid (config : Config) : Bool :=
  config.bind = Bytes.lit "127.0.0.1"
    && (1 ≤ config.port && config.port ≤ 65535)
    && 1 ≤ config.maxSessions
    && (1 ≤ config.maxHttpConnections && config.maxHttpConnections ≤ 4096)
    && 65536 ≤ config.queueBytes
    && (0 ≤ config.queueBackpressureMs && config.queueBackpressureMs ≤ 5000)
    && (0 ≤ config.codecCacheSeconds && config.codecCacheSeconds ≤ 86400)
    && (0 ≤ config.realplayKeyframeIntervalFrames
      && config.realplayKeyframeIntervalFrames ≤ 65535)
    && (100 ≤ config.connectProbeTimeoutMs && config.connectProbeTimeoutMs ≤ 10000)
    && !config.codecCacheFile.isEmpty
    && 1 ≤ config.logRetentionDays
    && 1 ≤ config.maxPlaybackSeconds
    && 1 ≤ config.sdkStartMs
    && 1 ≤ config.firstMediaMs
    && 1 ≤ config.noSdkDataMs
    && (1000 ≤ config.outputStallMs && config.outputStallMs ≤ 600000)
    && (1000 ≤ config.clientWriteStallMs && config.clientWriteStallMs ≤ 600000)
    && (1000 ≤ config.playbackKeepAliveMs && config.playbackKeepAliveMs ≤ 5000)
    && !config.logDirectory.isEmpty
    && config.outputVideoCodec = Bytes.lit "h264"
    && !config.videoEncoder.isEmpty
    && !config.videoPreset.isEmpty
    && (1000 ≤ config.hardwareProbeTimeoutMs && config.hardwareProbeTimeoutMs ≤ 30000)
    && hardwareAccelerations.contains config.hardwareAcceleration

def load (host : ConfigHost) (json : Bytes) : Except BridgeError Config := do
  let default : Config := {}
  let sdkType := jsonString json "sdktype" (Bytes.lit "hcnetsdk")
  let server := jsonSection json (Bytes.lit "server")
  let sdk := jsonSection json (Bytes.lit "sdk")
  let ffmpeg := jsonSection json (Bytes.lit "ffmpeg")
  let logging := jsonSection json (Bytes.lit "logging")
  let media := jsonSection json (Bytes.lit "media")
  let timeouts := jsonSection json (Bytes.lit "timeouts")
  let bind := jsonString server "bind" default.bind
  let port ← jsonInt server "port" default.port
  let maxSessions ← jsonInt server "maxSessions" default.maxSessions
  let maxHttpConnections ← jsonInt server "maxHttpConnections" default.maxHttpConnections
  let sdkDirectory := jsonString sdk "directory" default.sdkDirectory
  let readVideoCodecFromDevice ←
    jsonBool sdk "readVideoCodecFromDevice" default.readVideoCodecFromDevice
  let forceKeyframeOnRealplay ←
    jsonBool sdk "forceKeyFrameOnRealPlay" default.forceKeyframeOnRealplay
  let realplayKeyframeIntervalFrames ←
    jsonInt sdk "realPlayKeyFrameIntervalFrames" default.realplayKeyframeIntervalFrames
  let connectProbeTimeoutMs ← jsonInt sdk "connectProbeTimeoutMs" default.connectProbeTimeoutMs
  let ffmpegPath := jsonString ffmpeg "path" default.ffmpegPath
  let ffmpegLogLevel := jsonString ffmpeg "logLevel" default.ffmpegLogLevel
  let hardwareAcceleration :=
    (jsonString ffmpeg "hardwareAcceleration" default.hardwareAcceleration).map toLower
  let hardwareProbeTimeoutMs ← jsonInt ffmpeg "hardwareProbeTimeoutMs" default.hardwareProbeTimeoutMs
  let logDirectory := jsonString logging "directory" default.logDirectory
  let logRetentionDays ← jsonInt logging "retentionDays" default.logRetentionDays
  let queueBytes ← jsonInt media "queueBytes" default.queueBytes
  if queueBytes < 0 then
    .error (invalidConfig "media.queueBytes 必须为正数")
  else
    let queueBackpressureMs ← jsonInt media "queueBackpressureMs" default.queueBackpressureMs
    let maxPlaybackSeconds ← jsonInt media "maxPlaybackSeconds" default.maxPlaybackSeconds
    let outputVideoCodec := jsonString media "outputVideoCodec" default.outputVideoCodec
    let videoEncoder := jsonString media "videoEncoder" default.videoEncoder
    let videoPreset := jsonString media "videoPreset" default.videoPreset
    let enableAudio ← jsonBool media "enableAudio" default.enableAudio
    let codecCacheSeconds ← jsonInt media "codecCacheSeconds" default.codecCacheSeconds
    let codecCacheFile := jsonString media "codecCacheFile" default.codecCacheFile
    let sdkStartMs ← jsonInt timeouts "sdkStartMs" default.sdkStartMs
    let firstMediaMs ← jsonInt timeouts "firstMediaMs" default.firstMediaMs
    let noSdkDataMs ← jsonInt timeouts "noSdkDataMs" default.noSdkDataMs
    let outputStallMs ← jsonInt timeouts "outputStallMs" default.outputStallMs
    let clientWriteStallMs ← jsonInt timeouts "clientWriteStallMs" default.clientWriteStallMs
    let playbackKeepAliveMs ← jsonInt timeouts "playbackKeepAliveMs" default.playbackKeepAliveMs
    let config : Config := {
      bind, port, maxSessions, maxHttpConnections
      sdkDirectory := host.sdkOverride.getD (host.resolve sdkDirectory)
      readVideoCodecFromDevice, forceKeyframeOnRealplay, realplayKeyframeIntervalFrames
      connectProbeTimeoutMs
      ffmpegPath := host.ffmpegOverride.getD (host.resolve ffmpegPath)
      ffmpegLogLevel, hardwareAcceleration, hardwareProbeTimeoutMs
      logDirectory := host.logOverride.getD (host.resolve logDirectory)
      logRetentionDays, queueBytes, queueBackpressureMs, maxPlaybackSeconds
      sdkStartMs, firstMediaMs, noSdkDataMs, outputStallMs, clientWriteStallMs, playbackKeepAliveMs
      outputVideoCodec, videoEncoder, videoPreset, enableAudio, codecCacheSeconds
      codecCacheFile := host.resolve codecCacheFile }
    if sdkType = Bytes.lit "hcnetsdk" ∧ config.valid then
      .ok config
    else
      .error (invalidConfig "桥接服务配置无效")

end Config

section Loaded

variable {host : ConfigHost} {json : Bytes} {config : Config}

theorem bind_eq_ok_iff {α β : Type} {x : Except BridgeError α} {f : α → Except BridgeError β} {b : β}
    : x >>= f = .ok b ↔ ∃ a, x = .ok a ∧ f a = .ok b := by
  cases x with
  | error error =>
    constructor
    . intro h
      contradiction
    . rintro ⟨a, ha, -⟩
      contradiction
  | ok a =>
    constructor
    . intro h
      exact ⟨a, rfl, h⟩
    . rintro ⟨a', ha, h⟩
      cases ha
      exact h

theorem Config.of_load (h : Config.load host json = .ok config)
    : jsonInt (jsonSection json (Bytes.lit "server")) "port" 28080 = .ok config.port
        ∧ config.valid = true := by
  unfold Config.load at h
  dsimp only at h
  rcases bind_eq_ok_iff.mp h with ⟨port, hport, h⟩
  rcases bind_eq_ok_iff.mp h with ⟨maxSessions, -, h⟩
  rcases bind_eq_ok_iff.mp h with ⟨maxHttpConnections, -, h⟩
  rcases bind_eq_ok_iff.mp h with ⟨readVideoCodecFromDevice, -, h⟩
  rcases bind_eq_ok_iff.mp h with ⟨forceKeyframeOnRealplay, -, h⟩
  rcases bind_eq_ok_iff.mp h with ⟨realplayKeyframeIntervalFrames, -, h⟩
  rcases bind_eq_ok_iff.mp h with ⟨connectProbeTimeoutMs, -, h⟩
  rcases bind_eq_ok_iff.mp h with ⟨hardwareProbeTimeoutMs, -, h⟩
  rcases bind_eq_ok_iff.mp h with ⟨logRetentionDays, -, h⟩
  rcases bind_eq_ok_iff.mp h with ⟨queueBytes, -, h⟩
  split at h
  . contradiction
  . rcases bind_eq_ok_iff.mp h with ⟨queueBackpressureMs, -, h⟩
    rcases bind_eq_ok_iff.mp h with ⟨maxPlaybackSeconds, -, h⟩
    rcases bind_eq_ok_iff.mp h with ⟨enableAudio, -, h⟩
    rcases bind_eq_ok_iff.mp h with ⟨codecCacheSeconds, -, h⟩
    rcases bind_eq_ok_iff.mp h with ⟨sdkStartMs, -, h⟩
    rcases bind_eq_ok_iff.mp h with ⟨firstMediaMs, -, h⟩
    rcases bind_eq_ok_iff.mp h with ⟨noSdkDataMs, -, h⟩
    rcases bind_eq_ok_iff.mp h with ⟨outputStallMs, -, h⟩
    rcases bind_eq_ok_iff.mp h with ⟨clientWriteStallMs, -, h⟩
    rcases bind_eq_ok_iff.mp h with ⟨playbackKeepAliveMs, -, h⟩
    split at h
    . next hvalid =>
      cases h
      exact ⟨hport, hvalid.2⟩
    . contradiction

end Loaded

end HikBridge
