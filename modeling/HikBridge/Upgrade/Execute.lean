import HikBridge.Upgrade.Services

/-!
This module contains `upgrade::execute`: the checks of the new package, its copy beside the installation,
the replacement of the installation and the rollback.
-/

namespace HikBridge.Upgrade

-- A line on the console, whose text may not fit into memory.
def say : Run Unit := do
  let _ ← call "bad allocation"
  pure ()

-- The constructor of `UpgradeLock`. The mutex is released when the tool ends.
def acquireLock : Run Unit := do
  let _ ← call "无法创建升级互斥锁"
  let _ ← require "上次升级异常中止，请先检查备份和服务状态后重试"
  let _ ← require "已有升级程序正在运行，请等待其完成后再试"

def existsAt (place : Place) : Run Bool := do
  let _ ← call "exists"
  let m ← Program.inspect
  pure (m.places place).isSome

def existsAny (places : List Place) : Run Bool := do
  match places with
  | [] => pure false
  | place :: places => do
    let found ← existsAt place
    if found then pure true else existsAny places

-- `fs::rename` of a directory, which fails where the destination is taken.
def rename (source destination : Place) : Run Unit := do
  let r ← observe
  let m ← Program.inspect
  if r.fails ∨ (m.places source).isNone ∨ (m.places destination).isSome then
    fail "rename"
  else
    Program.update fun m => m.move source destination

def addStaged (file : String × Entry) : Run Unit :=
  Program.update fun m => m.setPlace .staged
    ((m.places .staged).map fun tree => { tree with files := tree.files ++ [file] })

-- `fs::copy_file` may copy something else, which `equal_file` is there to find out.
def copyEntry (file : String × Entry) : Run Unit := do
  let _ ← require "Reparse points are not supported in upgrade paths"
  match file.2 with
  | .directory => do
    let _ ← call "create_directory"
    addStaged file
  | .file data => do
    let _ ← require "Unsupported entry in full package"
    let r ← call "copy_file"
    let copied := r.copied.getD data
    addStaged (file.1, .file copied)
    let _ ← call "file_size"
    let _ ← call "file_size"
    let r ← observe
    Program.update fun m => m.compared ⟨r.comparison, data, copied⟩
    if equalFile r.comparison data copied then pure () else fail "Copied file verification failed"

def copyEntries (files : Files) : Run Unit := do
  match files with
  | [] => pure ()
  | file :: files => do
    copyEntry file
    copyEntries files

-- `copy_all(source, staged)`
def copyAll : Run Unit := do
  let found ← existsAt .staged
  if found then
    fail "Staging directory already exists"
  else do
    let _ ← call "create_directory"
    Program.update fun m => m.setPlace .staged (some { package := .New, files := [] })
    let m ← Program.inspect
    copyEntries m.source
    Program.update Machine.renew

-- The tasks of the two names, in the directory of the tasks and for `schtasks.exe`.
def checkTask : Run Unit := do
  let _ ← require "发现残留的旧计划任务，请先处理计划任务迁移后再升级服务"
  let _ ← require "发现残留的旧计划任务，请先处理计划任务迁移后再升级服务"

-- The checks of the new package.
def checkPackage : Run Unit := do
  let _ ← call "Cannot locate updater"
  let _ ← require "请右键升级.bat，选择以管理员身份运行"
  acquireLock
  let _ ← require "新包不完整，请保留主程序、配置、SDK、FFmpeg 和服务安装脚本"
  let _ ← require "Upgrade source must be the native C++ bridge"
  let _ ← require "新程序或配置校验失败，原服务尚未修改"
  let _ ← require "升级工具与新包版本不一致，请重新解压完整升级包"
  let _ ← require "Invalid port"
  let _ ← call "Cannot open service manager"

-- The checks of the installation. The loops that look for links are one step each.
def checkInstallation : Run Unit := do
  let _ ← call "Cannot resolve installation directory"
  let _ ← require "新包目录不能与旧安装目录相同或互相包含，请解压到另一个独立目录"
  checkTask
  checkTask
  say
  say
  say
  let _ ← require "Reparse points are not supported in upgrade paths"
  let _ ← require "Reparse points are not supported in upgrade paths"

-- What comes before `if(check)`.
def preflight : Run Snapshot := do
  checkPackage
  let old ← discover
  checkInstallation
  pure old

-- What comes between `if(check)` and the `try` block.
def stage : Run Unit := do
  let taken ← existsAny [.backup, .staged, .failed]
  if taken then
    fail "Upgrade staging paths already exist"
  else do
    copyAll
    let _ ← require "Staged configuration/runtime validation failed"
    let _ ← require "Cannot back up service registration"
    say
    say

-- Everything before the `try` block, with the snapshot if it is entered.
def prepare (check : Bool) : Run (Option Snapshot) := do
  let old ← preflight
  if check then do
    say
    pure none
  else do
    stage
    pure (some old)

-- The child process is the new program, in the directory of the installation.
def validateInstalled : Run Unit := do
  let r ← observe
  Program.update fun m => m.written .New r.script.writes
  if r.fails then
    fail "Cannot start child process"
  else if r.refuses then
    fail "Installed package validation failed"
  else
    pure ()

-- A script that fails or that is ended after the timeout may have done all or part of its work.
def runScript : Run Unit := do
  let r ← observe
  Program.update fun m => m.script r.script
  if r.fails then
    fail "Child process timed out"
  else if r.refuses then
    fail "服务安装脚本执行失败，请查看新目录或失败目录内的 upgrade-install.log"
  else
    pure ()

-- One attempt of `verify`.
def verifyOnce : Run Unit := do
  let current ← snapshot nativeName
  if ¬ (current.kind = .Native ∧ current.running ∧ current.start = .auto ∧ !current.delayed) then
    fail "New service startup mode or state is incorrect"
  else do
    let _ ← require "New service points to wrong directory"
    let _ ← require "New service missing"
    let _ ← status nativeName
    let _ ← require "Health port is not owned by the new service"
    let _ ← require "Service is unhealthy"
    let _ ← require "Running service version differs from new package"
    Program.update fun m => { m with verified := some (m.places .target, m.services nativeName) }

def verify : Run Unit :=
  Program.iterate (fun _ => do
    let verified ← Program.rescue (do verifyOnce; pure true) (fun _ => do let _ ← observe; pure false)
    if verified then
      pure (.inr ())
    else do
      let clock ← observe
      if clock.late then fail "Upgrade verification failed" else pure (.inl ())) ()

-- What is done with the new package in its place.
def install (old : Snapshot) : Run Unit := do
  validateInstalled
  (if old.kind = .Managed then remove old.name else pure ())
  Program.update fun m => { m with installed := true }
  runScript
  verify

-- The `try` block.
def attempt (old : Snapshot) : Run Unit := do
  stop old.name
  rename .target .backup
  Program.update fun m => { m with moved := true }
  rename .staged .target
  install old
  say
  say

def stopServices (old : Snapshot) : Run Unit := do
  let m ← Program.inspect
  if m.installed then do
    stop nativeName
    if old.name ≠ nativeName then remove nativeName else pure ()
  else
    stop old.name

def renameBack : Run Unit := do
  let m ← Program.inspect
  if m.moved then do
    let found ← existsAt .target
    (if found then rename .target .failed else pure ())
    rename .backup .target
  else
    pure ()

def moveBack (old : Snapshot) : Run Unit := do
  stopServices old
  renameBack

-- The inner `try` block of the `catch` clause.
def rollback (old : Snapshot) : Run Unit := do
  moveBack old
  restore old
  say

inductive Ended where
  | checked
  | upgraded
  | rolledBack
  | rollbackFailed
  deriving DecidableEq, Repr

def Ended.exitCode (ended : Ended) : Nat :=
  match ended with
  | .checked => 0
  | .upgraded => 0
  | .rolledBack => 1
  | .rollbackFailed => 1

def transact (old : Snapshot) : Run Ended := do
  Program.update fun m => { m with moved := false, installed := false }
  Program.rescue (do attempt old; pure .upgraded) fun _ => do
    say
    say
    Program.rescue (do rollback old; pure .rolledBack) fun _ => do
      say
      say
      pure .rollbackFailed

-- `execute`, with the way in which it ends.
def executeEnd (check : Bool) : Run Ended := do
  let prepared ← prepare check
  match prepared with
  | none => pure .checked
  | some old => transact old

def execute (check : Bool) : Run Nat := do
  let ended ← executeEnd check
  pure ended.exitCode

end HikBridge.Upgrade
