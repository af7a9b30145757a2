import HikBridge.Config.Basic
import HikBridge.Doubles
import HikBridge.Http.HandleConnection
import HikBridge.VideoCodecCache.Basic

/-!
This module contains `parse_stream_request`: the parameters of a `/video` request, how their texts are
converted, and the checks that they have to pass.
-/

namespace HikBridge

open Exchange (invalidParameter)

def required (query : Query) (name : String) : Except BridgeError Bytes :=
  match query (Bytes.lit name) with
  | none => .error (invalidParameter ("缺少必填参数：" ++ name))
  | some [] => .error (invalidParameter ("缺少必填参数：" ++ name))
  | some value => .ok value

def isSafeCharacter (c : UInt8) : Bool :=
  (97 ≤ c && c ≤ 122) || (65 ≤ c && c ≤ 90) || (48 ≤ c && c ≤ 57) || c == 45 || c == 95

def isSafeSessionId (value : Bytes) : Bool := !value.isEmpty && value.all isSafeCharacter

def Bytes.unread (text : Bytes) : Bytes :=
  (sign (text.dropWhile isSpace)).2.dropWhile Numeral.isDecimal

def parseLong (value : Bytes) (name : String) : Except BridgeError Int :=
  match Bytes.stoll value with
  | none => .error (invalidParameter (name ++ " 必须为整数"))
  | some result =>
    if value.unread = [] then .ok result else .error (invalidParameter (name ++ " 必须为整数"))

def parseInt (value : Bytes) (name : String) : Except BridgeError Int := do
  let result ← parseLong value name
  if result < -2147483648 ∨ 2147483647 < result then
    .error (invalidParameter (name ++ " 超出允许范围"))
  else
    .ok result

def parseOption (option : Bytes) : Except BridgeError StreamOption :=
  if option = Bytes.lit "realplay" then .ok .RealPlay
  else if option = Bytes.lit "playback" then .ok .Playback
  else .error (invalidParameter "option 必须为 realplay 或 playback")

def parseChannelType (channelType : Bytes) : Except BridgeError ChannelType :=
  if channelType = Bytes.lit "auto" then .ok .Auto
  else if channelType = Bytes.lit "analog" then .ok .Analog
  else if channelType = Bytes.lit "digital" ∨ channelType = Bytes.lit "ip" then .ok .Digital
  else if channelType = Bytes.lit "digitalIndex" then .ok .DigitalIndex
  else .error (invalidParameter "channelType 必须为 auto、analog、digital、digitalIndex 或 ip")

def parseStream (stream : Bytes) : Except BridgeError Stream :=
  if stream = Bytes.lit "main" then .ok .Main
  else if stream = Bytes.lit "sub" then .ok .Sub
  else .error (invalidParameter "stream 必须为 main 或 sub")

def validSpeeds : List Float.Model :=
  [.ofNat 16, .ofNat 8, .ofNat 4, .ofNat 2, .ofNat 1, .ofScientific 5 (-1), .ofScientific 25 (-2),
    .ofScientific 125 (-3), .ofScientific 625 (-4)]

-- `std::set::count`: an element is equal that is neither less nor greater.
def isValidSpeed (speed : Float.Model) : Bool :=
  validSpeeds.any fun element => !speed.lt element && !element.lt speed

def parseSpeed (point : UInt8) (speedText : Bytes) : Except BridgeError Float.Model :=
  match Bytes.stod point speedText with
  | none => .error (invalidParameter "不支持的播放速度")
  | some speed =>
    if isValidSpeed speed then .ok speed else .error (invalidParameter "不支持的播放速度")

def isOne (speed : Float.Model) : Bool := speed == .ofNat 1

def inAllowedRange (port camera : Int) (channelType : ChannelType) (ip username password sid : Bytes)
    : Bool :=
  !(port < 1 || port > 65535 || camera < 0 || (channelType ≠ .DigitalIndex && camera < 1)
    || ip.length > 128 || username.length > 63 || password.length > 63 || sid.length > 128
    || !isSafeSessionId sid)

def parseTimes (query : Query) (config : Config) (option : StreamOption) (speed : Float.Model)
    : Except BridgeError (Int × Int) :=
  match option with
  | .Playback => do
    let start ← parseLong (← required query "start") "start"
    let stop ← parseLong (← required query "end") "end"
    if start < 0 ∨ stop ≤ start ∨ stop - start > config.maxPlaybackSeconds then
      .error (invalidParameter "回放时间范围无效")
    else
      .ok (start, stop)
  | .RealPlay =>
    if isOne speed then .ok (0, 0) else .error (invalidParameter "实时预览仅支持 speed=1")

def parseStreamRequest (point : UInt8) (query : Query) (config : Config)
    : Except BridgeError VideoCodecCache.StreamRequest := do
  let option ← parseOption (← required query "option")
  let ip ← required query "ip"
  let port ← parseInt (← required query "port") "port"
  let username ← required query "username"
  let password ← required query "password"
  let camera ← parseInt (← required query "camera") "camera"
  let sid ← required query "sid"
  let channelType ← parseChannelType ((query (Bytes.lit "channelType")).getD (Bytes.lit "auto"))
  let stream ← parseStream ((query (Bytes.lit "stream")).getD (Bytes.lit "main"))
  let speed ← parseSpeed point ((query (Bytes.lit "speed")).getD (Bytes.lit "1"))
  if inAllowedRange port camera channelType ip username password sid then
    let (start, stop) ← parseTimes query config option speed
    .ok {
      option, ip, port, username, password, camera, channelType, stream, sid, start, stop
      speed := speed.toBits
      generation := (query (Bytes.lit "generation")).getD [] }
  else
    .error (invalidParameter "NVR 参数超出允许范围")

end HikBridge
