import HikBridge.NvrChannelTopology.Basic

/-!
This module contains `NvrChannelTopology` of the C# bridge. Its arithmetic is unchecked: it keeps the
low 32 bits.
-/

namespace HikBridge
namespace NvrChannelTopology
namespace CSharp

def intMaxValue : UInt32 := 2147483647

def usable (n : UInt32) : Bool := n > 0 && n ≤ intMaxValue

def readIpConfig (t : NvrChannelTopology) (c : IpParaCfg) : NvrChannelTopology where
  analogStart := t.analogStart
  analogCount := if usable c.dwAChanNum then max t.analogCount (toInt c.dwAChanNum) else t.analogCount
  digitalStart := if usable c.dwStartDChan then toInt c.dwStartDChan else t.digitalStart
  digitalCount :=
    if usable c.dwDChanNum then max t.digitalCount (toInt c.dwDChanNum) else t.digitalCount
  analogEnabled :=
    if c.dwAChanNum > 0 then fun index => c.byAnalogChanEnable index != 0 else t.analogEnabled
  ipParameterConfigRead := true

def read (r : DeviceReport) : NvrChannelTopology :=
  let device := r.device
  let analogCount := device.byChanNum.toNat
  let t : NvrChannelTopology :=
    { analogStart := device.byStartChan.toNat
      analogCount
      digitalStart := device.byStartDChan.toNat
      digitalCount := (device.byIPChanNum.toNat ||| device.byHighDChanNum.toNat <<< 8 : Nat)
      analogEnabled := fun index => decide (index.val < analogCount)
      ipParameterConfigRead := false }
  match r.ipConfig with
  | none => t
  | some c => readIpConfig t c

def inRange (start count camera : Int) : Bool :=
  count > 0 && camera ≥ start && camera < Signed.wrap (start + count)

def channelRange (start count : Int) : String :=
  if count ≤ 0 ∨ start ≤ 0 then
    "none"
  else
    toString start ++ "-" ++ toString (Signed.wrap (Signed.wrap (start + count) - 1))

variable (t : NvrChannelTopology) (camera : Int)

def isAnalog : Bool := inRange t.analogStart t.analogCount camera

def isDigital : Bool := inRange t.digitalStart t.digitalCount camera

def refuse {α : Type} (code message : String) : Except BridgeError α := .error ⟨422, code, message⟩

def ensureAnalogEnabled : Except BridgeError Unit :=
  let index := Signed.wrap (camera - t.analogStart)
  if t.ipParameterConfigRead && !t.enabledAt index then
    refuse "ANALOG_CHANNEL_DISABLED"
      ("camera=" ++ toString camera
        ++ " is an analog channel but is disabled or has no analog input configured on the NVR")
  else
    pure ()

def unsupportedAnalog {α : Type} : Except BridgeError α :=
  refuse "ANALOG_CHANNEL_UNSUPPORTED"
    ("camera=" ++ toString camera
      ++ " requested as analog, but this NVR reports no analog channels; use the NVR digital/IP SDK"
      ++ " channel number (often starting at "
      ++ (if t.digitalStart > 0 then toString t.digitalStart else "33") ++ ") for an IP camera")

def unsupportedDigital {α : Type} : Except BridgeError α :=
  refuse "DIGITAL_CHANNEL_UNSUPPORTED" "NVR reports no digital/IP channels"

def resolve (requestedType : ChannelType) : Except BridgeError (Int × ResolvedChannelType) :=
  let analog := isAnalog t camera
  let digital := isDigital t camera
  match requestedType with
  | .Analog =>
    if t.analogCount ≤ 0 then
      unsupportedAnalog t camera
    else if !analog then
      refuse "ANALOG_CHANNEL_OUT_OF_RANGE"
        ("camera=" ++ toString camera ++ " is not in the NVR analog channel range "
          ++ channelRange t.analogStart t.analogCount)
    else do
      ensureAnalogEnabled t camera
      pure (camera, .Analog)
  | .Digital =>
    if t.digitalCount ≤ 0 then
      unsupportedDigital
    else if !digital then
      refuse "DIGITAL_CHANNEL_OUT_OF_RANGE"
        ("camera=" ++ toString camera ++ " is not in the NVR digital/IP channel range "
          ++ channelRange t.digitalStart t.digitalCount)
    else
      pure (camera, .Digital)
  | .DigitalIndex =>
    if t.digitalCount ≤ 0 then
      unsupportedDigital
    else if camera < 0 ∨ camera ≥ t.digitalCount then
      refuse "DIGITAL_CHANNEL_INDEX_OUT_OF_RANGE"
        ("camera=" ++ toString camera ++ " is not in the zero-based digital channel index range 0-"
          ++ toString (Signed.wrap (t.digitalCount - 1)))
    else
      pure (Signed.wrap (t.digitalStart + camera), .Digital)
  | .Auto =>
    if analog then do
      ensureAnalogEnabled t camera
      pure (camera, .Analog)
    else if digital then
      pure (camera, .Digital)
    else
      refuse "CHANNEL_NOT_FOUND"
        ("camera=" ++ toString camera ++ " is not reported by this NVR; analog="
          ++ channelRange t.analogStart t.analogCount ++ ", digital="
          ++ channelRange t.digitalStart t.digitalCount)

end CSharp
end NvrChannelTopology
end HikBridge
