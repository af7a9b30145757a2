import HikBridge.HcSession.Basic
import HikBridge.Video.Sdk

/-!
This module contains the two tasks of the C# bridge that call HCNetSDK for one `HcNetStreamSession`:
the request that owns the session and the monitor of its playback. A step of a task is one call of the
SDK or one access to a field that both tasks use.
-/

namespace HikBridge

-- Where the request stands in `Prepare`, `StartStreamAndWaitForData` and `Dispose`.
inductive RequestTaskPc where
  | probing
  | loggingIn
  | readingTopology
  | resolving
  | readingConfiguration
  | changingConfiguration
  | prepared
  | startingRealPlay
  | requestingKeyFrame
  | startingPlayback
  | settingCallback
  | controlling (calls : Nat)
  | lastError (next : RequestTaskPc)
  | streaming
  | disposing
  | cancelling
  | stopping
  | clearing
  | loggingOut
  | done
  deriving DecidableEq, Repr

-- Where `MonitorPlayback` stands. It reads `_streamHandle` for the check and again for each call.
inductive WatchPc where
  | notStarted
  | loop
  | sleeping
  | keepAlive (positionDue : Bool)
  | controlling (handle : Int) (positionDue : Bool)
  | lastError (positionDue : Bool)
  | keptAlive (positionDue : Bool)
  | position
  | positioning (handle : Int)
  | exited
  deriving DecidableEq, Repr

/--
What the environment decides in a step of the request: what the SDK returns, whether the device has a
longer key frame interval than the configured one, and whether something throws before the next call.
-/
structure RequestInput where
  throws : Bool := false
  number : Int := 0
  ok : Bool := true
  longer : Bool := false
  deriving DecidableEq, Repr

structure StreamSettings where
  option : StreamOption
  readsConfiguration : Bool := true
  changesInterval : Bool := false
  forceKeyFrame : Bool := true
  speedSteps : Nat := 0
  deriving DecidableEq, Repr

structure StreamTask where
  settings : StreamSettings
  userId : Int := -1
  streamHandle : Int := -1
  disposed : Bool := false
  stopRequested : Bool := false
  ended : Bool := false
  keepAliveFailures : Nat := 0
  request : RequestTaskPc := .probing
  monitor : WatchPc := .notStarted
  deriving DecidableEq, Repr

namespace RequestTaskPc

-- Before `Dispose` every statement may throw.
def inUse : RequestTaskPc → Bool
  | .disposing | .cancelling | .stopping | .clearing | .loggingOut | .done => false
  | _ => true

end RequestTaskPc

namespace StreamTask

variable (t : StreamTask)

def requestStep (input : RequestInput) : Option (StreamTask × Option SdkCall) :=
  if t.request.inUse && input.throws then
    some ({ t with request := .disposing }, none)
  else
    match t.request with
    | .probing => some ({ t with request := .loggingIn }, none)
    | .loggingIn =>
      let next : RequestTaskPc := if input.number < 0 then .lastError .disposing else .readingTopology
      some ({ t with userId := input.number, request := next }, some (.login input.number))
    | .readingTopology =>
      let next : RequestTaskPc := if input.ok then .resolving else .lastError .resolving
      some ({ t with request := next }, some (.useUser t.userId))
    | .resolving =>
      let next : RequestTaskPc := if t.settings.readsConfiguration then .readingConfiguration else .prepared
      some ({ t with request := next }, none)
    | .readingConfiguration =>
      let next : RequestTaskPc :=
        if !input.ok then .lastError .prepared
        else if t.settings.changesInterval && input.longer then .changingConfiguration
        else .prepared
      some ({ t with request := next }, some (.useUser t.userId))
    | .changingConfiguration =>
      let next : RequestTaskPc := if input.ok then .prepared else .lastError .prepared
      some ({ t with request := next }, some (.useUser t.userId))
    | .prepared =>
      let next : RequestTaskPc :=
        match t.settings.option with
        | .RealPlay => .startingRealPlay
        | .Playback => .startingPlayback
      some ({ t with request := next }, none)
    | .startingRealPlay =>
      let next : RequestTaskPc :=
        if input.number < 0 then .lastError .disposing
        else if t.settings.forceKeyFrame then .requestingKeyFrame
        else .streaming
      some ({ t with streamHandle := input.number, request := next },
        some (.openStream .RealPlay t.userId input.number))
    | .requestingKeyFrame =>
      let next : RequestTaskPc := if input.ok then .streaming else .lastError .streaming
      some ({ t with request := next }, some (.useUser t.userId))
    | .startingPlayback =>
      let next : RequestTaskPc := if input.number < 0 then .lastError .disposing else .settingCallback
      some ({ t with streamHandle := input.number, request := next },
        some (.openStream .Playback t.userId input.number))
    | .settingCallback =>
      -- `NET_DVR_PLAYSTART` comes before the steps of the speed.
      let next : RequestTaskPc :=
        if input.ok then .controlling (t.settings.speedSteps + 1) else .lastError .disposing
      some ({ t with request := next }, some (.useHandle t.streamHandle))
    | .controlling (calls + 1) =>
      let next : RequestTaskPc := if input.ok then .controlling calls else .lastError .disposing
      some ({ t with request := next }, some (.useHandle t.streamHandle))
    | .controlling 0 => some ({ t with monitor := .loop, request := .streaming }, none)
    | .lastError next => some ({ t with request := next }, some .getLastError)
    | .streaming => some ({ t with request := .disposing }, none)
    | .disposing =>
      -- What stands before `session.Dispose()` in the `finally` block may throw.
      let next : RequestTaskPc := if input.throws || t.disposed then .done else .cancelling
      some ({ t with disposed := t.disposed || !input.throws, request := next }, none)
    | .cancelling => some ({ t with stopRequested := true, request := .stopping }, none)
    | .stopping =>
      if 0 ≤ t.streamHandle then
        some ({ t with request := .clearing },
          some (.stopStream t.settings.option t.streamHandle))
      else
        some ({ t with request := .loggingOut }, none)
    | .clearing => some ({ t with streamHandle := -1, request := .loggingOut }, none)
    | .loggingOut =>
      if 0 ≤ t.userId then
        some ({ t with userId := -1, request := .done }, some (.logout t.userId))
      else
        some ({ t with request := .done }, none)
    | .done => none

def monitorStep (input : MonitorInput) : Option (StreamTask × Option SdkCall) :=
  match t.monitor with
  | .notStarted | .exited => none
  | .loop => some ({ t with monitor := if t.stopRequested then .exited else .sleeping }, none)
  | .sleeping =>
    let next : WatchPc :=
      if t.streamHandle < 0 then .exited
      else if input.keepAliveDue then .keepAlive input.positionDue
      else if input.positionDue then .position
      else .loop
    some ({ t with monitor := next }, none)
  | .keepAlive positionDue =>
    some ({ t with monitor := .controlling t.streamHandle positionDue }, none)
  | .controlling handle positionDue =>
    let next : WatchPc := if input.keptAlive then .keptAlive positionDue else .lastError positionDue
    let failures := if input.keptAlive then 0 else t.keepAliveFailures + 1
    some ({ t with keepAliveFailures := failures, monitor := next }, some (.useHandle handle))
  | .lastError positionDue =>
    some ({ t with
      ended := t.ended || decide (3 ≤ t.keepAliveFailures)
      monitor := .keptAlive positionDue }, some .getLastError)
  | .keptAlive positionDue =>
    let next : WatchPc := if t.ended then .exited else if positionDue then .position else .loop
    some ({ t with monitor := next }, none)
  | .position => some ({ t with monitor := .positioning t.streamHandle }, none)
  | .positioning handle =>
    let ending := decide (input.position = 100 ∨ input.position = 200)
    some ({ t with ended := t.ended || ending, monitor := if ending then .exited else .loop },
      some (.useHandle handle))

end StreamTask

end HikBridge
