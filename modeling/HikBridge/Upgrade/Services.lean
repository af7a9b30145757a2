import HikBridge.Upgrade.Machine

/-!
This module contains what `hik-bridge-upgrade` does to services: it takes a snapshot of the registered
service, stops it, removes it and restores it from the snapshot.
-/

namespace HikBridge.Upgrade

structure Snapshot where
  name : String
  command : String
  display : String
  account : String
  group : String
  description : String
  dependencies : List String
  type : Nat
  start : StartType
  error : ErrorControl
  running : Bool
  delayed : Bool
  failureFlag : Bool
  -- no bytes where the query gave none
  failures : Option FailureActions
  kind : Kind
  exe : String
  deriving DecidableEq

-- `SERVICE_WIN32_OWN_PROCESS`
def ownProcess : Nat := 0x10

def lower (value : String) : List Char := value.toList.map Char.toLower

def knownAccount (account : String) : Bool :=
  let account := lower account
  account == "localsystem".toList || account == "nt authority\\localservice".toList
    || account == "nt authority\\networkservice".toList

-- A text that is not set is reported as null or as empty.
def reportText (nullText : Bool) (text : String) : Option String :=
  if text = "" ∧ nullText then none else some text

-- Without actions `lpsaActions` is null.
def FailurePolicy.report (p : FailurePolicy) (nullText : Bool) : FailureActions :=
  { resetPeriod := p.resetPeriod
    rebootMessage := reportText nullText p.rebootMessage
    command := reportText nullText p.command
    actions := if p.actions = [] then none else some p.actions }

/--
`ChangeServiceConfig2W` with `SERVICE_CONFIG_FAILURE_ACTIONS`: a null text is left as it is, and so are
the actions and the reset period where `lpsaActions` is null.
-/
def FailurePolicy.change (p : FailurePolicy) (a : FailureActions) : FailurePolicy :=
  let p := { p with rebootMessage := a.rebootMessage.getD p.rebootMessage, command := a.command.getD p.command }
  match a.actions with
  | none => p
  | some [] => { p with resetPeriod := 0, actions := [], unset := by simp }
  | some (action :: actions) =>
    { p with resetPeriod := a.resetPeriod, actions := action :: actions, unset := by simp }

-- The arguments of `ChangeServiceConfigW`, where null or `SERVICE_NO_CHANGE` leaves a value as it is.
structure ConfigChange where
  type : Option Nat
  start : Option StartType
  error : Option ErrorControl
  command : Option String
  group : Option String
  dependencies : Option (List String)
  account : Option String
  display : Option String

def ServiceConfig.change (c : ServiceConfig) (d : ConfigChange) : ServiceConfig :=
  { c with
    type := d.type.getD c.type
    start := d.start.getD c.start
    error := d.error.getD c.error
    command := d.command.getD c.command
    group := d.group.getD c.group
    dependencies := d.dependencies.getD c.dependencies
    account := d.account.getD c.account
    display := d.display.getD c.display }

-- Where a service that is starting or stopping has got to.
def ServiceState.settle (state next : ServiceState) : ServiceState :=
  match state with
  | .StartPending => if next = .Running ∨ next = .Stopped then next else .StartPending
  | .StopPending => if next = .Stopped then .Stopped else .StopPending
  | state => state

/--
`config2`: nothing where the first query does not give the size of the answer.
-/
def config2 {α : Type} (value : Reply → α) : Run (Option α) := do
  let size ← observe
  if size.fails then
    pure none
  else do
    let r ← call "Cannot query extended service configuration"
    pure (some (value r))

/--
`status` of a service that is open, which stays so while it is marked for deletion.
-/
def status (name : String) : Run ServiceState := do
  let r ← call "Cannot query service status"
  Program.update fun m => m.mapService name fun service =>
    { service with state := service.state.settle r.state }
  let found ← serviceAt name
  match found with
  | none => pure .Stopped
  | some service => pure service.state

-- The size of the configuration, then the configuration.
def snapshot (name : String) : Run Snapshot := do
  let opened ← observe
  let found ← serviceAt name
  match found with
  | none => fail "Cannot open service"
  | some service => do
    let c := service.config
    if opened.fails then
      fail "Cannot open service"
    else do
      let _ ← observe
      let _ ← call "Cannot query service configuration"
      let state ← status name
      if state ≠ .Running ∧ state ≠ .Stopped then
        fail "服务正在启动或停止，请等待状态稳定后重试"
      else do
        let delayed ← config2 fun _ => c.delayed
        let description ← config2 fun _ => c.description
        let failures ← config2 fun r => c.failures.report r.nullText
        let flag ← config2 fun _ => c.failureFlag
        let _ ← call "Cannot parse service command"
        let _ ← require "Service executable path must be absolute and correctly quoted"
        -- `no_links`, `resolved_path`, `identify`
        let _ ← require "Reparse points are not supported in upgrade paths"
        let exe ← call "Cannot resolve service executable"
        let kind ← require "Unknown service executable; refusing migration"
        if c.type ≠ ownProcess then
          fail "Shared-process or driver services are unsupported"
        else if !knownAccount c.account then
          fail "旧服务使用自定义账户，自动回滚无法恢复其密码，请由管理员手动迁移"
        else
          pure
            { name
              command := c.command
              display := c.display
              account := c.account
              group := c.group
              description := description.getD ""
              dependencies := c.dependencies
              type := c.type
              start := c.start
              error := c.error
              running := state == .Running
              delayed := delayed.getD false
              failureFlag := flag.getD false
              failures
              kind := kind.kind
              exe := exe.path }

-- One service of the loop of `discover`, with whether it was found.
def inspectService (name : String) : Run Bool := do
  let r ← observe
  let found ← serviceAt name
  if r.fails then fail "Cannot inspect existing bridge service" else pure found.isSome

def discover : Run Snapshot := do
  let native ← inspectService nativeName
  let managed ← inspectService managedName
  match native, managed with
  | true, false => snapshot nativeName
  | false, true => snapshot managedName
  | false, false => fail "未找到支持的桥接服务，请使用安装.bat；仅使用计划任务的旧版需单独迁移"
  | true, true => fail "同时发现多个桥接服务，请先处理重复注册，避免替换错误目录"

-- `ControlService` with `SERVICE_CONTROL_STOP`, where a service that is not active is no failure.
def controlStop (name : String) : Run Unit := do
  let r ← observe
  if r.fails then
    fail "Cannot stop service"
  else
    Program.update fun m => m.mapService name fun service =>
      { service with state := if service.state = .Stopped then .Stopped else .StopPending }

def waitStopped (name : String) : Run Unit :=
  Program.iterate (fun _ => do
    let state ← status name
    if state = .Stopped then
      pure (.inr ())
    else do
      let clock ← observe
      if clock.late then fail "等待旧服务停止超时，升级已中止" else pure (.inl ())) ()

def stop (name : String) : Run Unit := do
  let opened ← observe
  let found ← serviceAt name
  if opened.fails then
    fail "Cannot open service to stop"
  else if found.isNone then
    pure ()
  else do
    let state ← status name
    -- `OpenProcess`
    let process ← observe
    (if state ≠ .Stopped ∧ state ≠ .StopPending then controlStop name else pure ())
    waitStopped name
    if process.fails then
      pure ()
    else do
      let _ ← require "Service process has not exited"
      pure ()

-- `DeleteService`, which takes effect when no handle is open any more.
def deleteService (name : String) : Run Unit := do
  let r ← observe
  let found ← serviceAt name
  match found with
  | none => pure ()
  | some service =>
    if r.fails ∧ service.marked = false then
      fail "Cannot delete old service"
    else
      Program.update fun m => m.mapService name fun service => { service with marked := true }

def openForDeletion (name : String) : Run Bool := do
  let r ← observe
  let found ← serviceAt name
  if r.fails then fail "Cannot open service for deletion" else pure found.isSome

-- The poll that finds a service that is marked gone.
def pollGone (name : String) : Run Bool := do
  let r ← observe
  Program.update fun m =>
    match m.services name with
    | none => m
    | some service => if service.marked ∧ r.gone then m.setService name none else m
  let found ← serviceAt name
  pure (found.isNone && !r.fails)

def waitGone (name : String) : Run Unit :=
  Program.iterate (fun _ => do
    let gone ← pollGone name
    if gone then
      pure (.inr ())
    else do
      let clock ← observe
      if clock.late then
        fail "旧服务仍处于待删除状态，请关闭服务管理窗口后重试"
      else
        pure (.inl ())) ()

def remove (name : String) : Run Unit := do
  stop name
  let found ← openForDeletion name
  (if found then deleteService name else pure ())
  waitGone name

def Snapshot.configChange (s : Snapshot) : ConfigChange :=
  { type := some s.type
    start := some s.start
    error := some s.error
    command := some s.command
    group := some s.group
    dependencies := some s.dependencies
    account := some s.account
    display := some s.display }

-- What `CreateServiceW` registers, with the defaults of a new service.
def Snapshot.created (s : Snapshot) : ServiceConfig :=
  { command := s.command
    display := s.display
    account := s.account
    group := s.group
    type := s.type
    start := s.start
    error := s.error
    dependencies := s.dependencies }

-- `CreateServiceW`, which fails where the name is taken.
def createService (s : Snapshot) : Run Unit := do
  let r ← observe
  let found ← serviceAt s.name
  if r.fails ∨ found.isSome then
    fail "Cannot restore old service registration"
  else
    Program.update fun m => m.setService s.name (some { config := s.created })

-- A change of a service that is marked for deletion fails.
def changeService (name text : String) (f : ServiceConfig → ServiceConfig) : Run Unit := do
  let r ← observe
  let found ← serviceAt name
  match found with
  | none => fail text
  | some service =>
    if r.fails ∨ service.marked then
      fail text
    else
      Program.update fun m => m.mapService name fun service => { service with config := f service.config }

-- `StartServiceW`, where a service that has a process already is no failure.
def startService (name : String) : Run Unit := do
  let r ← observe
  let m ← Program.inspect
  match m.services name, m.places .target with
  | some service, some tree =>
    if r.fails ∨ service.marked ∨ service.config.start = .disabled then
      fail "Cannot restart original service"
    else if service.state ≠ .Stopped then
      pure ()
    else
      Program.update fun m => m.mapService name fun service =>
        { service with state := .StartPending, image := tree.package }
  | _, _ => fail "Cannot restart original service"

def waitRunning (name : String) : Run Unit :=
  Program.iterate (fun _ => do
    let state ← status name
    if state = .Running then
      pure (.inr ())
    else do
      let clock ← observe
      if clock.late then fail "Original service did not resume running" else pure (.inl ())) ()

def restoreRegistration (s : Snapshot) : Run Unit := do
  let opened ← observe
  let found ← serviceAt s.name
  if opened.fails ∨ found.isNone then
    createService s
  else
    changeService s.name "Cannot restore old service settings" fun c => c.change s.configChange

-- The failure policy is restored as `ChangeServiceConfig2W` reads the bytes of the snapshot.
def restoreFailures (s : Snapshot) : Run Unit :=
  match s.failures with
  | none => pure ()
  | some actions =>
    changeService s.name "Cannot restore failure recovery" fun c =>
      { c with failures := c.failures.change actions }

def restore (s : Snapshot) : Run Unit := do
  restoreRegistration s
  changeService s.name "Cannot restore delayed startup setting" fun c => { c with delayed := s.delayed }
  changeService s.name "Cannot restore description" fun c => { c with description := s.description }
  restoreFailures s
  changeService s.name "Cannot restore recovery flag" fun c => { c with failureFlag := s.failureFlag }
  if s.running then do
    startService s.name
    waitRunning s.name
  else
    pure ()

end HikBridge.Upgrade
