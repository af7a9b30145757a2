import HikBridge.Lib.Signed
import HikBridge.VideoCodecCache.Basic

/-!
This module contains `NvrChannelTopology` of the C++ bridge: the channels that a device reports and
the SDK channel for the camera of a request.
-/

namespace HikBridge

inductive ResolvedChannelType where
  | Analog
  | Digital
  | Unknown
  deriving DecidableEq, Repr

-- `MAX_CHANNUM_V30`
def maxChannum : Nat := 64

structure DeviceInfo where
  byChanNum : UInt8
  byStartChan : UInt8
  byIPChanNum : UInt8
  byStartDChan : UInt8
  byHighDChanNum : UInt8

structure IpParaCfg where
  dwAChanNum : UInt32
  dwDChanNum : UInt32
  dwStartDChan : UInt32
  byAnalogChanEnable : Fin maxChannum → UInt8

/--
The report of a device. `ipConfig` is `none` where `NET_DVR_GetDVRConfig` fails.
-/
structure DeviceReport where
  device : DeviceInfo
  ipConfig : Option IpParaCfg

/--
Why `resolve` does not return: it throws, or the behaviour of a signed overflow is undefined.
-/
inductive ResolveFault where
  | bridge (error : BridgeError)
  | undefined
  deriving DecidableEq, Repr

abbrev Resolution (α : Type) := Except ResolveFault α

structure NvrChannelTopology where
  analogStart : Int
  analogCount : Int
  digitalStart : Int
  digitalCount : Int
  analogEnabled : Fin maxChannum → Bool
  ipParameterConfigRead : Bool

namespace NvrChannelTopology

def refuse {α : Type} (code message : String) : Resolution α :=
  .error (.bridge ⟨422, code, message⟩)

-- An operation on `int`s, the overflow of which is undefined.
def checked : Option Int → Resolution Int
  | some n => .ok n
  | none => .error .undefined

-- `static_cast<int>` of a `DWORD`
def toInt (n : UInt32) : Int := Signed.wrap n.toNat

def readIpConfig (t : NvrChannelTopology) (c : IpParaCfg) : NvrChannelTopology where
  analogStart := t.analogStart
  analogCount := if c.dwAChanNum > 0 then max t.analogCount (toInt c.dwAChanNum) else t.analogCount
  digitalStart := if c.dwStartDChan > 0 then toInt c.dwStartDChan else t.digitalStart
  digitalCount :=
    if c.dwDChanNum > 0 then max t.digitalCount (toInt c.dwDChanNum) else t.digitalCount
  analogEnabled :=
    if c.dwAChanNum > 0 then fun index => c.byAnalogChanEnable index != 0 else t.analogEnabled
  ipParameterConfigRead := true

def read (r : DeviceReport) : NvrChannelTopology :=
  let device := r.device
  let analogCount := device.byChanNum.toNat
  let analogStart := device.byStartChan.toNat
  let t : NvrChannelTopology :=
    { analogStart := if analogCount > 0 ∧ analogStart = 0 then 1 else analogStart
      analogCount
      digitalStart := device.byStartDChan.toNat
      digitalCount := (device.byIPChanNum.toNat ||| device.byHighDChanNum.toNat <<< 8 : Nat)
      analogEnabled := fun index => decide (index.val < analogCount)
      ipParameterConfigRead := false }
  match r.ipConfig with
  | none => t
  | some c => t.readIpConfig c

/--
The test of `is_analog` and of `is_digital`. The end of the range is only computed for a camera that
is not below it.
-/
def inRange (start count camera : Int) : Resolution Bool :=
  if count > 0 ∧ camera ≥ start then do
    let stop ← checked (Signed.add? start count)
    pure (decide (camera < stop))
  else
    pure false

def channelRange (start count : Int) : Resolution String :=
  if count ≤ 0 ∨ start ≤ 0 then
    pure "none"
  else do
    let stop ← checked (Signed.add? start count)
    let last ← checked (Signed.sub? stop 1)
    pure (toString start ++ "-" ++ toString last)

variable (t : NvrChannelTopology) (camera : Int)

def isAnalog : Resolution Bool := inRange t.analogStart t.analogCount camera

def isDigital : Resolution Bool := inRange t.digitalStart t.digitalCount camera

def enabledAt (index : Int) : Bool :=
  if h : 0 ≤ index ∧ index < maxChannum then
    t.analogEnabled ⟨index.toNat, by omega⟩
  else
    false

def ensureAnalogEnabled : Resolution Unit := do
  let index ← checked (Signed.sub? camera t.analogStart)
  if t.ipParameterConfigRead && !t.enabledAt index then
    refuse "ANALOG_CHANNEL_DISABLED"
      ("camera=" ++ toString camera ++ " 是模拟通道，但已禁用或 NVR 未配置模拟输入")
  else
    pure ()

def unsupportedAnalog {α : Type} : Resolution α :=
  let start := if t.digitalStart > 0 then toString t.digitalStart else "33"
  refuse "ANALOG_CHANNEL_UNSUPPORTED"
    ("camera=" ++ toString camera ++ " 被指定为模拟通道，但 NVR 未报告模拟通道；"
      ++ "IP 摄像机请使用 NVR 的数字/IP SDK 通道号（通常从 " ++ start ++ " 开始）")

def unsupportedDigital {α : Type} : Resolution α :=
  refuse "DIGITAL_CHANNEL_UNSUPPORTED" "NVR 未报告数字/IP 通道"

def resolve (requestedType : ChannelType) : Resolution (Int × ResolvedChannelType) := do
  let analog ← t.isAnalog camera
  let digital ← t.isDigital camera
  match requestedType with
  | .Analog =>
    if t.analogCount ≤ 0 then
      t.unsupportedAnalog camera
    else if !analog then do
      let range ← channelRange t.analogStart t.analogCount
      refuse "ANALOG_CHANNEL_OUT_OF_RANGE"
        ("camera=" ++ toString camera ++ " 不在 NVR 模拟通道范围 " ++ range ++ " 内")
    else do
      t.ensureAnalogEnabled camera
      pure (camera, .Analog)
  | .Digital =>
    if t.digitalCount ≤ 0 then
      unsupportedDigital
    else if !digital then do
      let range ← channelRange t.digitalStart t.digitalCount
      refuse "DIGITAL_CHANNEL_OUT_OF_RANGE"
        ("camera=" ++ toString camera ++ " 不在 NVR 数字/IP 通道范围 " ++ range ++ " 内")
    else
      pure (camera, .Digital)
  | .DigitalIndex =>
    if t.digitalCount ≤ 0 then
      unsupportedDigital
    else if camera < 0 ∨ camera ≥ t.digitalCount then do
      let last ← checked (Signed.sub? t.digitalCount 1)
      refuse "DIGITAL_CHANNEL_INDEX_OUT_OF_RANGE"
        ("camera=" ++ toString camera ++ " 不在从零开始的数字通道序号范围 0-" ++ toString last
          ++ " 内")
    else do
      let channel ← checked (Signed.add? t.digitalStart camera)
      pure (channel, .Digital)
  | .Auto =>
    if analog then do
      t.ensureAnalogEnabled camera
      pure (camera, .Analog)
    else if digital then
      pure (camera, .Digital)
    else do
      let analogRange ← channelRange t.analogStart t.analogCount
      let digitalRange ← channelRange t.digitalStart t.digitalCount
      refuse "CHANNEL_NOT_FOUND"
        ("NVR 未报告 camera=" ++ toString camera ++ "；模拟通道=" ++ analogRange ++ "，数字通道="
          ++ digitalRange)

end NvrChannelTopology
end HikBridge
