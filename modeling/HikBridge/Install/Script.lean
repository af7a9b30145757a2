import HikBridge.Install.Machine

/-!
This module contains `windows-service.cmd install`: the main line with its labels, and its subroutines.
-/

namespace HikBridge.Install

/--
The directory of the script, in which a file name has no quote. `%~dp0` ends in a backslash.
-/
structure Package where
  directory : List Char
  unquoted : '"' ∉ directory

namespace Package

def exe (p : Package) : List Char := p.directory ++ "hik-sdk-http-bridge.exe".toList

def config (p : Package) : List Char := p.directory ++ "config.json".toList

def image (p : Package) : List Char :=
  '"' :: p.exe ++ "\" service --config \"".toList ++ p.config ++ ['"']

end Package

inductive Report where
  | failed
  | absent
  | present (state : ServiceState)
  deriving DecidableEq

-- `EXISTS` is 0 with `QUERY_RC` 1060.
def queryService (name : Name) : Run Report := do
  let t ← Program.ask
  Program.update (Script.advance name t.progress)
  let s ← Program.inspect
  match s.service name with
  | none => return if t.ok then .absent else .failed
  | some service =>
    if t.ok then
      Program.update (Script.log (.reported name service.state))
      return .present service.state
    else
      return .failed

section Services

def stopPoll (name : Name) : Nat → Run Bool
  | 0 => return false
  | polls + 1 => do
    match ← queryService name with
    | .failed => return false
    | .absent => return true
    | .present state => if state = .stopped then return true else stopPoll name polls

def stopService (name : Name) : Run Bool := do
  match ← queryService name with
  | .failed => return false
  | .absent => return true
  | .present .stopped => return true
  | .present .stopPending => stopPoll name 90
  | .present _ => if ← scStop name then stopPoll name 90 else return false

def confirmRunning : Run Bool := do
  return (← queryService .hikbridge) = .present .running

def startPoll : Nat → Run Bool
  | 0 => return false
  | polls + 1 => do
    match ← queryService .hikbridge with
    | .failed => return false
    | .absent => return false
    | .present .stopped => return false
    | .present .running => confirmRunning
    | .present _ => startPoll polls

def waitRunning : Run Bool := startPoll 240

def restartService (name : Name) : Run Bool := do
  match ← queryService name with
  | .failed => return false
  | .absent => scStart name
  | .present state => if state = .running then return true else scStart name

def deletePoll (name : Name) : Nat → Run Bool
  | 0 => return false
  | polls + 1 => do
    match ← queryService name with
    | .failed => return false
    | .absent => return true
    | .present _ => deletePoll name polls

def removeService (name : Name) : Run Bool := do
  if ← stopService name then
    match ← queryService name with
    | .failed => return false
    | .absent => return true
    | .present _ => if ← scDelete name then deletePoll name 30 else return false
  else
    return false

end Services

section Tasks

variable (codePage : Char → List Char)

def Task.redirected (task : Task) : Task := { task with text := Install.redirected codePage task.text }

def Script.saveTask (name : Name) (s : Script) : Script :=
  { s with xml := Function.update s.xml name ((s.task name).map (Task.redirected codePage)) }

def snapshotTask (name : Name) : Run Bool := do
  if ← schtasksQuery name then
    command (fun s => (s.task name).isSome) (Script.saveTask codePage name)
  else
    -- A task that is there has its file below `System32\Tasks`.
    let s ← Program.inspect
    return (s.task name).isNone

def pauseTask (name : Name) : Run Bool := do
  let s ← Program.inspect
  if (s.xml name).isNone then
    return true
  else if ← schtasksDisable name then
    let _ ← schtasksTouch name
    return true
  else
    return false

def removeTask (name : Name) : Run Bool := do
  let s ← Program.inspect
  if (s.xml name).isNone then
    return true
  else if ← pauseTask name then
    schtasksDelete name
  else
    return false

def restoreTask (name : Name) : Run Bool := do
  let s ← Program.inspect
  if (s.xml name).isNone then
    return true
  else if ← schtasksCreate name then
    -- A restored disabled task refuses to run.
    let _ ← schtasksTouch name
    return true
  else
    return false

end Tasks

section Registration

variable (codePage : Char → List Char)

-- `reg export` and the queries of values that every service has
def regKey : Run Bool := command (fun s => (s.service .hikbridge).isSome) id

/--
The query of a value that only a service with delayed start has for certain. Its exit code is not looked
at, and without an answer `OLD_DELAYED` stays `0x0`.
-/
def regDelayed : Run Bool := do
  let t ← Program.ask
  let s ← Program.inspect
  if t.ok then
    return (s.service .hikbridge).any fun service => service.start = .delayedAuto
  else
    Program.update (Script.log .unread)
    return false

def readImage (service : Service) : List Char :=
  let image := captured "REG_EXPAND_SZ".toList (imageReport codePage service)
  if image = [] then captured "REG_SZ".toList (imageReport codePage service) else image

/--
The start type from the value of `Start`, which does not tell a delayed start from the other one.
-/
def readStart (delayed : Bool) : StartType → Option StartType
  | .auto | .delayedAuto => some (if delayed then .delayedAuto else .auto)
  | .demand => some .demand
  | .disabled => some .disabled
  | .boot | .system => none

-- The queries of `ImagePath`, `Start` and `DelayedAutoStart` are one command each.
def snapshotService : Run Bool := do
  if ← regKey then
    if ← regKey then
      if ← regKey then
        let delayed ← regDelayed
        let s ← Program.inspect
        match s.service .hikbridge with
        | none => return false
        | some service =>
          let image := readImage codePage service
          match readStart delayed service.start with
          | none => return false
          | some start =>
            if image = [] then
              return false
            else
              Program.update fun s => { s with oldImage := image, oldStart := start }
              return true
      else return false
    else return false
  else return false

/--
`\"EXE\" service --config \"CONFIG\"` between quotes.
-/
def Package.quotedImage (p : Package) : List Char :=
  "\"\\\"".toList ++ p.exe ++ "\\\" service --config \\\"".toList ++ p.config ++ "\\\"\"".toList

def createLine (p : Package) : List Char :=
  spaced ["create".toList, "hikbridge".toList, "binPath=".toList, p.quotedImage, "start=".toList,
    "auto".toList, "obj=".toList, "LocalSystem".toList, "DisplayName=".toList, "\"Hik SDK HTTP Bridge\"".toList]

def updateLine (p : Package) : List Char :=
  spaced ["config".toList, "hikbridge".toList, "binPath=".toList, p.quotedImage, "start=".toList, "auto".toList]

-- `set "ESCAPED=!OLD_IMAGE:"=\"!"`
def restoreLine (image : List Char) (start : StartType) : List Char :=
  spaced ["config".toList, "hikbridge".toList, "binPath=".toList,
    '"' :: CommandLine.escape image ++ ['"'], "start=".toList, start.word]

-- `CREATED` is set when `sc create` has run, whatever its exit code.
def configureService (p : Package) : Run Bool := do
  let s ← Program.inspect
  if s.oldExists then
    if ← scConfig (updateLine p) then
      Program.update (Script.log .reconfigured)
      return true
    else
      return false
  else
    let ok ← scCreate (createLine p)
    Program.update fun s => { s with created := true }
    return ok

def restoreService : Run Bool := do
  let s ← Program.inspect
  scConfig (restoreLine s.oldImage s.oldStart)

end Registration

section Install

variable (codePage : Char → List Char) (p : Package)

-- The files, `--validate-config`, `fltmc` and the backup directory.
def validate : Run Unit := do
  orGoto .finish (command (fun _ => true) id)
  orGoto .finish (command (fun _ => true) id)
  orGoto .finish (command (fun _ => true) id)
  orGoto .finish (command (fun _ => true) id)
  orGoto .finish (command (fun _ => true) id)

def snapshotHikbridge : Run Bool := do
  match ← queryService .hikbridge with
  | .failed => return false
  | .absent => return true
  | .present state =>
    Program.update fun s => { s with oldExists := true, oldRunning := state = .running }
    snapshotService codePage

def snapshotLegacy : Run Bool := do
  match ← queryService .HikSdkHttpBridge with
  | .failed => return false
  | .absent => return true
  | .present state =>
    Program.update fun s => { s with legacyRunning := state = .running }
    command (fun s => (s.service .HikSdkHttpBridge).isSome) id

def snapshot : Run Unit := do
  orGoto .finish (snapshotTask codePage .hikbridge)
  orGoto .finish (snapshotTask codePage .HikSdkHttpBridge)
  orGoto .finish (snapshotHikbridge codePage)
  orGoto .finish snapshotLegacy

def replace : Run Unit := do
  orGoto .rollback (pauseTask .hikbridge)
  orGoto .rollback (pauseTask .HikSdkHttpBridge)
  orGoto .rollback (stopService .HikSdkHttpBridge)
  orGoto .rollback (stopService .hikbridge)
  orGoto .rollback (configureService p)
  Program.update fun s => { s with changed := true }
  orGoto .rollback (scStart .hikbridge)
  orGoto .rollback waitRunning

def complete : Run Unit := do
  orGoto .partialSuccess (scFailure .hikbridge)
  orGoto .partialSuccess (scFailureFlag .hikbridge)
  orGoto .partialSuccess (removeTask .hikbridge)
  orGoto .partialSuccess (removeTask .HikSdkHttpBridge)
  orGoto .partialSuccess (removeService .HikSdkHttpBridge)

inductive End where
  | succeeded
  | refused
  | partialSuccess
  | restored
  | rollbackFailed
  deriving DecidableEq

-- `RESULT`
def End.exitCode : End → Nat
  | .succeeded => 0
  | _ => 1

def undo : Run Bool := do
  let s ← Program.inspect
  if s.changed then
    if ← stopService .hikbridge then
      if s.created then removeService .hikbridge else restoreService
    else
      return false
  else
    return true

def restartPrevious : Run Bool := do
  let s ← Program.inspect
  if s.oldRunning then restartService .hikbridge else return true

def restartLegacy : Run Bool := do
  let s ← Program.inspect
  if s.legacyRunning then restartService .HikSdkHttpBridge else return true

def rollback : Run End := do
  if ← undo then
    let previous ← restartPrevious
    let legacy ← restartLegacy
    let task ← restoreTask .hikbridge
    let legacyTask ← restoreTask .HikSdkHttpBridge
    return if previous && legacy && task && legacyTask then .restored else .rollbackFailed
  else
    return .rollbackFailed

def leave : Label → Run End
  | .finish => return .refused
  | .rollback => rollback
  | .partialSuccess => return .partialSuccess

def mainLine : Run End := do
  validate
  snapshot codePage
  replace p
  complete
  return .succeeded

def install : Run End := Program.rescue (mainLine codePage p) leave

end Install

def Script.initial (m : Machine) : Script := { machine := m }

end HikBridge.Install
