import HikBridge.Lib.CommandLine
import HikBridge.Lib.Program
import Mathlib.Logic.Function.Basic

/-!
This module contains the Windows machine on which `windows-service.cmd install` works, and the commands
of `sc`, `reg` and `schtasks` that the script runs. A command that fails changes nothing. The lengths of
texts, which CMD bounds, are not modelled.
-/

namespace HikBridge.Install

-- The services and the scheduled tasks have the same two names.
inductive Name where
  | hikbridge
  | HikSdkHttpBridge
  deriving DecidableEq, Repr

-- In the order of the numbers that `sc query` prints, from 1.
inductive ServiceState where
  | stopped
  | startPending
  | stopPending
  | running
  | continuePending
  | pausePending
  | paused
  deriving DecidableEq, Repr

inductive StartType where
  | boot
  | system
  | auto
  | delayedAuto
  | demand
  | disabled
  deriving DecidableEq, Repr

/--
A registered service. `expandable` tells a `REG_EXPAND_SZ` image path from a `REG_SZ` one, `restarts` and
`failureFlag` are what `sc failure` and `sc failureflag` set.
-/
structure Service where
  image : List Char
  expandable : Bool := true
  start : StartType
  state : ServiceState := .stopped
  restarts : Bool := false
  failureFlag : Bool := false
  deriving DecidableEq

def Service.registration (service : Service) : List Char × StartType := (service.image, service.start)

-- A task definition as its XML says it.
structure Task where
  text : List Char
  enabled : Bool
  deriving DecidableEq

structure Machine where
  service : Name → Option Service
  task : Name → Option Task

def ServiceState.up : ServiceState → Bool
  | .startPending | .running | .continuePending => true
  | _ => false

def Machine.runs (m : Machine) (name : Name) : Prop := ∃ service ∈ m.service name, service.state = .running

def Machine.up (m : Machine) (name : Name) : Prop := ∃ service ∈ m.service name, service.state.up = true

def Machine.registration (m : Machine) (name : Name) : Option (List Char × StartType) :=
  (m.service name).map Service.registration

-- What a service does on its own is decided when it is queried.
inductive Progress where
  | stays
  | settles
  | ends
  deriving DecidableEq, Repr

/--
The answer to a command: whether it succeeds if it can, and how the queried service has moved on.
-/
structure Tick where
  ok : Bool
  progress : Progress := .stays

/--
Only a service that the script has started may fall out of `RUNNING` by itself.
-/
def ServiceState.next (startedHere : Bool) : Progress → ServiceState → ServiceState
  | .settles, .startPending | .settles, .continuePending => .running
  | .settles, .stopPending => .stopped
  | .settles, .pausePending => .paused
  | .ends, .startPending => .stopped
  | .ends, .running => if startedHere then .stopped else .running
  | _, state => state

inductive Entry where
  | reported (name : Name) (state : ServiceState)
  | started (name : Name)
  | reconfigured
  | unread
  | serviceDeleted (name : Name)
  | taskDeleted (name : Name)
  deriving DecidableEq, Repr

/--
The script between two commands. `xml` are the task files in the backup directory, `marked` the services
that `sc delete` has accepted, and `trace` is what has been done, newest first.
-/
structure Script where
  machine : Machine
  xml : Name → Option Task := fun _ => none
  created : Bool := false
  changed : Bool := false
  oldExists : Bool := false
  oldRunning : Bool := false
  legacyRunning : Bool := false
  oldImage : List Char := []
  oldStart : StartType := .auto
  startedHere : Name → Bool := fun _ => false
  marked : Name → Bool := fun _ => false
  trace : List Entry := []

namespace Script

def service (s : Script) (name : Name) : Option Service := s.machine.service name

def task (s : Script) (name : Name) : Option Task := s.machine.task name

def log (entry : Entry) (s : Script) : Script := { s with trace := entry :: s.trace }

def setService (name : Name) (service : Option Service) (s : Script) : Script :=
  { s with machine := { s.machine with service := Function.update s.machine.service name service } }

def setTask (name : Name) (task : Option Task) (s : Script) : Script :=
  { s with machine := { s.machine with task := Function.update s.machine.task name task } }

def changeService (name : Name) (f : Service → Service) (s : Script) : Script :=
  s.setService name ((s.service name).map f)

def next (name : Name) (progress : Progress) (s : Script) : Option Service :=
  if s.marked name ∧ progress ≠ .stays ∧ ∃ service ∈ s.service name, service.state = .stopped then
    none
  else
    (s.service name).map fun service =>
      { service with state := service.state.next (s.startedHere name) progress }

def advance (name : Name) (progress : Progress) (s : Script) : Script :=
  s.setService name (s.next name progress)

end Script

-- The labels that `goto` leaves the main line for.
inductive Label where
  | finish
  | rollback
  | partialSuccess
  deriving DecidableEq

abbrev Run := Program Script Tick Label

def command (possible : Script → Bool) (effect : Script → Script) : Run Bool := do
  let t ← Program.ask
  let s ← Program.inspect
  if t.ok && possible s then
    Program.update effect
    return true
  else
    return false

-- `if errorlevel 1 goto :label`
def orGoto (label : Label) (m : Run Bool) : Run Unit := do
  if ← m then
    return ()
  else
    Program.raise label

section Sc

def Script.stop (name : Name) (s : Script) : Script :=
  s.changeService name fun service => { service with state := .stopPending }

def scStop (name : Name) : Run Bool :=
  command (fun s => (s.service name).any fun service => service.state ≠ .stopped) (Script.stop name)

def Script.started (name : Name) (s : Script) : Script :=
  { s.changeService name fun service => { service with state := .startPending } with
    startedHere := Function.update s.startedHere name true
    trace := .started name :: s.trace }

def scStart (name : Name) : Run Bool :=
  command
    (fun s => !s.marked name && (s.service name).any fun service =>
      service.state = .stopped ∧ service.start ≠ .disabled)
    (Script.started name)

def Script.delete (name : Name) (s : Script) : Script :=
  { s with marked := Function.update s.marked name true, trace := .serviceDeleted name :: s.trace }

def scDelete (name : Name) : Run Bool :=
  command (fun s => !s.marked name && (s.service name).isSome) (Script.delete name)

-- `actions= restart/5000/restart/30000/restart/60000`
def scFailure (name : Name) : Run Bool :=
  command (fun s => (s.service name).isSome)
    (Script.changeService name fun service => { service with restarts := true })

def scFailureFlag (name : Name) : Run Bool :=
  command (fun s => (s.service name).isSome)
    (Script.changeService name fun service => { service with failureFlag := true })

def StartType.word : StartType → List Char
  | .boot => "boot".toList
  | .system => "system".toList
  | .auto => "auto".toList
  | .delayedAuto => "delayed-auto".toList
  | .demand => "demand".toList
  | .disabled => "disabled".toList

def StartType.ofWord (word : List Char) : Option StartType :=
  [.boot, .system, .auto, .delayedAuto, .demand, .disabled].find? fun start => start.word = word

/--
The options of `sc create` and `sc config`. One that `sc` does not know makes the command fail.
-/
def Service.configure : List (List Char) → Service → Option Service
  | [], service => some service
  | [_], _ => none
  | option :: value :: options, service =>
    if option = "binPath=".toList then
      Service.configure options { service with image := value, expandable := true }
    else if option = "start=".toList then
      match StartType.ofWord value with
      | some start => Service.configure options { service with start }
      | none => none
    else if option = "obj=".toList ∨ option = "DisplayName=".toList then
      Service.configure options service
    else
      none

def spaced : List (List Char) → List Char
  | [] => []
  | [word] => word
  | word :: words => word ++ ' ' :: spaced words

-- What the command makes of the service, where its first two arguments are the verb and the name.
def Service.configured (line : List Char) (service : Service) : Option Service :=
  service.configure ((CommandLine.arguments line).drop 2)

-- `sc create` without an option leaves the service to be started on demand.
def scCreate (line : List Char) : Run Bool :=
  let created := Service.configured line { image := [], start := .demand }
  command (fun s => (s.service .hikbridge).isNone && created.isSome) (Script.setService .hikbridge created)

def scConfig (line : List Char) : Run Bool :=
  command (fun s => !s.marked .hikbridge && ((s.service .hikbridge).bind (Service.configured line)).isSome)
    fun s => s.setService .hikbridge ((s.service .hikbridge).bind (Service.configured line))

end Sc

section Schtasks

def schtasksQuery (name : Name) : Run Bool := command (fun s => (s.task name).isSome) id

def Script.disableTask (name : Name) (s : Script) : Script :=
  s.setTask name ((s.task name).map fun task => { task with enabled := false })

def schtasksDisable (name : Name) : Run Bool :=
  command (fun s => (s.task name).isSome) (Script.disableTask name)

-- `/End` and `/Run` leave the definition as it is.
def schtasksTouch (name : Name) : Run Bool := command (fun s => (s.task name).isSome) id

def Script.deleteTask (name : Name) (s : Script) : Script := (s.setTask name none).log (.taskDeleted name)

def schtasksDelete (name : Name) : Run Bool :=
  command (fun s => (s.task name).isSome) (Script.deleteTask name)

def Script.createTask (name : Name) (s : Script) : Script := s.setTask name (s.xml name)

-- `/Create /XML /F`
def schtasksCreate (name : Name) : Run Bool :=
  command (fun s => (s.xml name).isSome) (Script.createTask name)

end Schtasks

section Redirection

/--
The output of a command in a file, as the code page in force represents each of its characters.
-/
def redirected (codePage : Char → List Char) (text : List Char) : List Char := text.flatMap codePage

/--
The second token of a line and what follows it, as `for /f "tokens=2,*"` binds them. A line from `;` on
is a comment.
-/
def tokens (line : List Char) : Option (List Char × List Char) :=
  let solid (c : Char) : Bool := !decide (CommandLine.Blank c)
  let second := CommandLine.skipBlanks ((CommandLine.skipBlanks line).dropWhile solid)
  if line.head? = some ';' ∨ second = [] then none
  else some (second.takeWhile solid, CommandLine.skipBlanks (second.dropWhile solid))

def captured (kind : List Char) (lines : List (List Char)) : List Char :=
  lines.foldl (fun value line =>
    match tokens line with
    | some (token, rest) => if token = kind then rest else value
    | none => value) []

-- `reg query /v ImagePath`
def imageReport (codePage : Char → List Char) (service : Service) : List (List Char) :=
  let kind := if service.expandable then "REG_EXPAND_SZ".toList else "REG_SZ".toList
  [[], "HKEY_LOCAL_MACHINE\\SYSTEM\\CurrentControlSet\\Services\\hikbridge".toList]
    ++ ("    ImagePath    ".toList ++ kind ++ "    ".toList ++ redirected codePage service.image).splitOnP
        fun c => c = '\r' ∨ c = '\n'

end Redirection

end HikBridge.Install
