import HikBridge.Basic
import HikBridge.Lib.Machine

/-!
This module contains the Windows service: the status that it reports, the control handler, the main
function and the thread that runs the bridge. Everything between two steps of the machine that
touches the status runs under `status_mutex`.
-/

namespace HikBridge

/--
`dwCurrentState`. A status that was never reported is zero, which is no state.
-/
inductive ServiceState where
  | unset
  | startPending
  | running
  | stopPending
  | stopped
  deriving DecidableEq, Repr

def ServiceState.pending (state : ServiceState) : Bool :=
  state == .startPending || state == .stopPending

structure ServiceStatus where
  serviceType : UInt32 := 0
  currentState : ServiceState := .unset
  controlsAccepted : UInt32 := 0
  win32ExitCode : UInt32 := 0
  serviceSpecificExitCode : UInt32 := 0
  checkPoint : UInt32 := 0
  waitHint : UInt32 := 0
  deriving DecidableEq, Repr

def ServiceStatus.report (status : ServiceStatus) (state : ServiceState) (error : UInt32)
    : ServiceStatus where
  serviceType := 0x10
  currentState := state
  controlsAccepted := if state = .running then 1 ||| 4 else 0
  win32ExitCode := if error = 0 then 0 else 1066
  serviceSpecificExitCode := error
  checkPoint := if state.pending then status.checkPoint + 1 else 0
  waitHint := if state.pending then 60000 else 0

inductive ServiceCall where
  | setServiceStatus (status : ServiceStatus)
  | stopCallback
  deriving DecidableEq, Repr

inductive Notification where
  | startProgress
  | ready
  deriving DecidableEq, Repr

def Notification.state : Notification → ServiceState
  | .startProgress => .startPending
  | .ready => .running

-- Where `service_main` stands.
inductive ServiceMainPc where
  | entered
  | refused
  | registered
  | watching
  | joining
  | reporting
  | returned
  | terminated
  deriving DecidableEq, Repr

-- Where the thread that runs the bridge stands.
inductive ServiceWorkerPc where
  | absent
  | running
  | finishing
  | done
  deriving DecidableEq, Repr

/--
`notifications` are those that the bridge still sends if nothing ends it before.
-/
structure WindowsService where
  status : ServiceStatus := {}
  statusHandle : Bool := false
  resultCode : Int32 := 1
  stopStarted : UInt64 := 0
  finished : Bool := false
  main : ServiceMainPc := .entered
  worker : ServiceWorkerPc := .absent
  notifications : List Notification
  calls : List ServiceCall := []
  deriving DecidableEq, Repr

/--
`finish` is the end of the run callback, with its result or by an exception. The answers of the
system come with the events: a failed registration with its error, the clock with its ticks.
-/
inductive ServiceEvent where
  | register (error : Option Int32)
  | control (code : UInt32) (tick : UInt64)
  | createThread (created : Bool)
  | notify
  | finish (result : Option Int32)
  | storeFinished
  | poll (tick : UInt64)
  | join
  | reportStopped
  deriving DecidableEq, Repr

namespace WindowsService

variable (s : WindowsService)

def report (state : ServiceState) (error : UInt32) : WindowsService :=
  let status := s.status.report state error
  { s with status, calls := s.calls ++ [.setServiceStatus status] }

def controlStop : UInt32 := 1
def controlShutdown : UInt32 := 5
def controlInterrogate : UInt32 := 4

def stop (tick : UInt64) : WindowsService :=
  let s := s.report .stopPending 0
  { s with stopStarted := tick, calls := s.calls ++ [.stopCallback] }

def control (code : UInt32) (tick : UInt64) : UInt32 × WindowsService :=
  if code = controlStop || code = controlShutdown then
    if s.status.currentState = .running then (0, s.stop tick) else (0, s)
  else if code = controlInterrogate then
    (0, s)
  else
    (120, s)

def notified (notification : Notification) : WindowsService :=
  if s.statusHandle && s.status.currentState = .startPending then s.report notification.state 0
  else s

def startProgress : WindowsService := s.notified .startProgress

def ready : WindowsService := s.notified .ready

def create (notifications : List Notification) : WindowsService := { notifications }

def step (s : WindowsService) : ServiceEvent → Option WindowsService
  | .register error =>
    match s.main, error with
    | .entered, none => some { { s with statusHandle := true }.report .startPending 0 with main := .registered }
    | .entered, some error => some { s with resultCode := error, main := .refused }
    | _, _ => none
  | .control code tick =>
    if s.main = .entered || s.main = .refused || s.main = .terminated then none
    else some (s.control code tick).2
  | .createThread created =>
    if s.main = .registered then
      if created then some { s with worker := .running, main := .watching }
      else some { s with resultCode := 1, main := .reporting }
    else
      none
  | .notify =>
    match s.notifications with
    | [] => none
    | notification :: notifications =>
      if s.worker = .running && s.main ≠ .terminated then
        some ({ s with notifications }.notified notification)
      else
        none
  | .finish result =>
    if s.worker = .running && s.main ≠ .terminated then
      some { s with resultCode := result.getD 1, worker := .finishing }
    else
      none
  | .storeFinished =>
    if s.worker = .finishing && s.main ≠ .terminated then
      some { s with finished := true, worker := .done }
    else
      none
  | .poll tick =>
    if s.main = .watching then
      if s.finished then some { s with main := .joining }
      -- The watchdog: the process is gone, with all its threads.
      else if s.stopStarted ≠ 0 && tick - s.stopStarted ≥ 60000 then some { s with main := .terminated }
      else some s
    else
      none
  | .join =>
    if s.main = .joining && s.worker = .done then some { s with main := .reporting } else none
  | .reportStopped =>
    if s.main = .reporting then
      some { s.report .stopped s.resultCode.toUInt32 with statusHandle := false, main := .returned }
    else
      none

end WindowsService

structure ProbeResult where
  started : Bool
  passed : Bool
  deriving DecidableEq, Repr

inductive HardwareBackend where
  | nvidiaNvenc
  | intelQsv
  | amdAmf
  deriving DecidableEq, Repr

/--
What a startup of the bridge meets: whether the SDK could be initialised, the answers of the FFmpeg
probes, and the test of each backend whose method and encoder FFmpeg lists.
-/
structure Startup where
  initialized : Bool
  requested : Bytes
  software : ProbeResult
  hwaccels : ProbeResult
  encoders : ProbeResult
  test : HardwareBackend → Option ProbeResult
  listening : Bool

namespace Startup

variable (u : Startup)

def runWindowsProcess (result : ProbeResult) : List Notification :=
  if result.started then [.startProgress] else []

def candidates (requested : Bytes) : List HardwareBackend :=
  if requested = Bytes.lit "nvidia" then [.nvidiaNvenc]
  else if requested = Bytes.lit "qsv" then [.intelQsv]
  else if requested = Bytes.lit "amf" then [.amdAmf]
  else [.nvidiaNvenc, .intelQsv, .amdAmf]

def testCandidates : List HardwareBackend → List Notification
  | [] => []
  | candidate :: rest =>
    match u.test candidate with
    | none => testCandidates rest
    | some test =>
      if test.passed then runWindowsProcess test
      else runWindowsProcess test ++ testCandidates rest

def detect : List Notification × Bool :=
  let software := runWindowsProcess u.software
  if !u.software.passed then (software, false)
  else if u.requested = Bytes.lit "off" then (software, true)
  else
    let listed := software ++ runWindowsProcess u.hwaccels ++ runWindowsProcess u.encoders
    if !u.hwaccels.passed || !u.encoders.passed then (listed, true)
    else (listed ++ u.testCandidates (candidates u.requested), true)

/--
The notifications of `run_server` up to its accept loop, which sends none.
-/
def runServer : List Notification :=
  if !u.initialized then []
  else
    let (notifications, detected) := u.detect
    if detected && u.listening then .startProgress :: notifications ++ [.ready]
    else .startProgress :: notifications

end Startup

end HikBridge
