import HikBridge.HttpBridgeServer.StreamTask
import HikBridge.Lib.Machine

/-!
This module contains `HttpBridgeServer`: the accept loop, the requests that it starts, each with the
two tasks of its session, and `Dispose`, which stops the service and cleans up the SDK.
-/

namespace HikBridge

-- Where `AcceptLoop` stands.
inductive AcceptPc where
  | polling
  | awaiting
  | accepted (settings : StreamSettings)
  | ended
  deriving DecidableEq, Repr

-- Where the service stands in `Dispose`.
inductive DisposePoint where
  | running
  | stoppingListener
  | waiting
  | closingListener
  | cleaningUp
  | disposed
  deriving DecidableEq, Repr

/--
A call of the SDK by a task of a session, or `NET_DVR_Cleanup`.
-/
inductive NetDvrCall where
  | task (id : Nat) (call : SdkCall)
  | cleanup
  deriving DecidableEq, Repr

structure HttpBridgeServer where
  initialized : Bool := true
  stopRequested : Bool := false
  listening : Bool := true
  accept : AcceptPc := .polling
  pc : DisposePoint := .running
  requests : Nat := 0
  tasks : Nat → StreamTask := fun _ => { settings := { option := .RealPlay } }
  calls : List NetDvrCall := []

/--
A step of a task. `finish` is the end of a stream for a reason that the monitor does not give.
-/
inductive HttpBridgeEvent where
  | accept (settings : Option StreamSettings)
  | request (id : Nat) (input : RequestInput)
  | monitor (id : Nat) (input : MonitorInput)
  | finish (id : Nat)
  | dispose (timedOut : Bool)
  deriving DecidableEq

namespace HttpBridgeServer

variable (w : HttpBridgeServer)

-- A request that does not reach `HandleVideo` calls nothing and is left out.
def acceptLoop (settings : Option StreamSettings) : Option HttpBridgeServer :=
  match w.accept with
  | .polling => some { w with accept := if w.stopRequested then .ended else .awaiting }
  | .awaiting =>
    match settings with
    | some settings => if w.listening then some { w with accept := .accepted settings } else none
    | none => some { w with accept := .ended }
  | .accepted settings =>
    some { w with
      tasks := Function.update w.tasks w.requests { settings }
      requests := w.requests + 1
      accept := .polling }
  | .ended => none

def taskStep (id : Nat) (step : StreamTask → Option (StreamTask × Option SdkCall))
    : Option HttpBridgeServer :=
  if id < w.requests then
    match step (w.tasks id) with
    | none => none
    | some (t, call) =>
      some { w with
        tasks := Function.update w.tasks id t
        calls := w.calls ++ (call.map (NetDvrCall.task id)).toList }
  else
    none

def dispose (timedOut : Bool) : Option HttpBridgeServer :=
  match w.pc with
  | .running => some { w with stopRequested := true, pc := .stoppingListener }
  | .stoppingListener => some { w with listening := false, pc := .waiting }
  | .waiting =>
    -- `_acceptTask.Wait(1000)`
    if w.accept = .ended ∨ timedOut then some { w with pc := .closingListener } else none
  | .closingListener => some { w with listening := false, pc := .cleaningUp }
  | .cleaningUp =>
    if w.initialized then
      some { w with initialized := false, pc := .disposed, calls := w.calls ++ [.cleanup] }
    else
      some { w with pc := .disposed }
  | .disposed => none

def step (event : HttpBridgeEvent) : Option HttpBridgeServer :=
  match event with
  | .accept settings => w.acceptLoop settings
  | .request id input => w.taskStep id fun t => t.requestStep input
  | .monitor id input => w.taskStep id fun t => t.monitorStep input
  | .finish id => w.taskStep id fun t => some ({ t with ended := true }, none)
  | .dispose timedOut => w.dispose timedOut

end HttpBridgeServer

end HikBridge
