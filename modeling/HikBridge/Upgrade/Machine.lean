import HikBridge.Lib.Program
import HikBridge.Upgrade.EqualFile

/-!
This module contains the Windows machine on which `hik-bridge-upgrade` works: the registered services,
the directories beside the installation, and what the service processes do between two steps of the tool.
-/

namespace HikBridge.Upgrade

def nativeName : String := "hikbridge"

def managedName : String := "HikSdkHttpBridge"

inductive Kind where
  | Native
  | Managed
  deriving DecidableEq, Repr

inductive StartType where
  | boot
  | system
  | auto
  | demand
  | disabled
  deriving DecidableEq, Repr

inductive ErrorControl where
  | ignore
  | normal
  | severe
  | critical
  deriving DecidableEq, Repr

-- `SC_ACTION`
structure FailureAction where
  type : Nat
  delay : Nat
  deriving DecidableEq, Repr

/--
The failure policy of a service, where a text that is not set is empty. Without actions there is no
reset period.
-/
structure FailurePolicy where
  resetPeriod : Nat := 0
  rebootMessage : String := ""
  command : String := ""
  actions : List FailureAction := []
  unset : actions = [] → resetPeriod = 0 := by decide
  deriving DecidableEq

-- `SERVICE_FAILURE_ACTIONSW`, whose pointers may be null.
structure FailureActions where
  resetPeriod : Nat
  rebootMessage : Option String
  command : Option String
  actions : Option (List FailureAction)
  deriving DecidableEq, Repr

structure ServiceConfig where
  command : String
  display : String
  account : String
  group : String := ""
  type : Nat
  start : StartType
  error : ErrorControl
  dependencies : List String := []
  delayed : Bool := false
  description : String := ""
  failures : FailurePolicy := {}
  failureFlag : Bool := false
  deriving DecidableEq

inductive ServiceState where
  | Stopped
  | StartPending
  | StopPending
  | Running
  | ContinuePending
  | PausePending
  | Paused
  deriving DecidableEq, Repr

-- The installation that was there, or the one that the tool brings.
inductive Package where
  | Old
  | New
  deriving DecidableEq, Repr

/--
A registered service. `image` is the package from which its process was started, if it has one, and
`marked` is set from `DeleteService` on.
-/
structure Service where
  config : ServiceConfig
  state : ServiceState := .Stopped
  image : Package := .Old
  marked : Bool := false
  deriving DecidableEq

inductive Entry where
  | directory
  | file (data : Bytes)
  deriving DecidableEq

-- What is below a directory, by relative path.
abbrev Files := List (String × Entry)

structure Write where
  path : String
  entry : Option Entry

def Files.write (files : Files) (w : Write) : Files :=
  let others := files.filter fun file => file.1 ≠ w.path
  match w.entry with
  | none => others
  | some entry => others ++ [(w.path, entry)]

def Files.writeAll (files : Files) (ws : List Write) : Files := ws.foldl Files.write files

structure Tree where
  package : Package
  files : Files
  deriving DecidableEq

-- The installation directory, and the three paths beside it that have the suffix of this upgrade.
inductive Place where
  | target
  | backup
  | staged
  | failed
  deriving DecidableEq, Repr

abbrev Registry := String → Option Service

def Registry.set (ρ : Registry) (name : String) (service : Option Service) : Registry :=
  fun other => if other = name then service else ρ other

-- A call of `equal_file`.
structure FileComparison where
  comparison : Comparison
  source : Bytes
  copy : Bytes

namespace FileComparison

variable (c : FileComparison)

def Sound : Prop := Upgrade.Sound c.comparison c.source c.copy

def Reliable : Prop := Upgrade.Reliable c.comparison.source c.comparison.copy.opens c.source

theorem sound_of_reliable (h : c.Reliable) : c.Sound := Upgrade.Reliable.sound h c.copy

end FileComparison

/--
`original` is the old installation with what the old service itself wrote into it, `fresh` the new one
with what came to it below the target path. `comparisons` holds the files that were compared, `verified`
the target and the native service at the moment when `verify` returned.
-/
structure Machine where
  services : Registry
  places : Place → Option Tree
  source : Files
  original : Files
  fresh : Files := []
  moved : Bool := false
  installed : Bool := false
  comparisons : List FileComparison := []
  verified : Option (Option Tree × Option Service) := none

inductive ManagedEffect where
  | kept
  | stopped (pending : Bool)
  | marked
  | removed
  deriving DecidableEq

/--
What a run of `windows-service.cmd install` leaves behind: any registration of the native service. A
managed service may be stopped or removed, but it is never created, and started only if it ran before.
-/
structure ScriptEffect where
  native : Option Service := none
  managed : ManagedEffect := .kept
  writes : List Write := []

/--
One answer of Windows to the tool, with what the service processes wrote before.
-/
structure Reply where
  fails : Bool := false
  refuses : Bool := false
  late : Bool := false
  state : ServiceState := .Running
  gone : Bool := true
  nullText : Bool := true
  kind : Kind := .Native
  path : String := ""
  copied : Option Bytes := none
  comparison : Comparison := {}
  writes : Package → List Write := fun _ => []
  script : ScriptEffect := {}

namespace Machine

variable (m : Machine)

def setService (name : String) (service : Option Service) : Machine :=
  { m with services := m.services.set name service }

def setPlace (place : Place) (tree : Option Tree) : Machine :=
  { m with places := fun other => if other = place then tree else m.places other }

def mapService (name : String) (f : Service → Service) : Machine :=
  m.setService name ((m.services name).map f)

-- Whether a service has a process that was started from the package.
def runs (name : String) (package : Package) : Bool :=
  match m.services name with
  | none => false
  | some service => decide (service.state ≠ .Stopped ∧ service.image = package)

def active (package : Package) : Bool := m.runs nativeName package || m.runs managedName package

def written (package : Package) (ws : List Write) : Machine :=
  match m.places .target with
  | none => m
  | some tree =>
    let m := m.setPlace .target (some { tree with files := tree.files.writeAll ws })
    match package with
    | .Old => { m with original := m.original.writeAll ws }
    | .New => { m with fresh := m.fresh.writeAll ws }

def compared (c : FileComparison) : Machine := { m with comparisons := m.comparisons ++ [c] }

-- The copy becomes the new installation.
def renew : Machine := { m with fresh := ((m.places .staged).map Tree.files).getD [] }

def move (source destination : Place) : Machine :=
  (m.setPlace destination (m.places source)).setPlace source none

def stopManaged (effect : ManagedEffect) (service : Service) : Option Service :=
  match effect with
  | .kept => some service
  | .stopped pending =>
    some { service with
      state := if service.state = .Stopped ∨ !pending then .Stopped else .StopPending }
  | .marked => some { service with marked := true }
  | .removed => none

-- A process of the native service that the script started comes from the package at the target.
def script (e : ScriptEffect) : Machine :=
  let m := m.written .New e.writes
  let image := ((m.places .target).map Tree.package).getD .New
  let m := m.setService nativeName (e.native.map fun service => { service with image })
  m.setService managedName ((m.services managedName).bind (stopManaged e.managed))

def serve (package : Package) (r : Reply) : Machine :=
  if m.active package then m.written package (r.writes package) else m

def advance (r : Reply) : Machine := (m.serve .Old r).serve .New r

end Machine

abbrev Run (α : Type) := Program Machine Reply String α

def observe : Run Reply := do
  let r ← Program.ask
  Program.update fun m => m.advance r
  pure r

def serviceAt (name : String) : Run (Option Service) := do
  let m ← Program.inspect
  pure (m.services name)

def fail {α : Type} (text : String) : Run α := Program.raise text

-- A call that throws when it fails.
def call (text : String) : Run Reply := do
  let r ← observe
  if r.fails then fail text else pure r

-- A condition that Windows or the contents of a file decides. To find it out may fail, too.
def require (text : String) : Run Reply := do
  let r ← call text
  if r.refuses then fail text else pure r

end HikBridge.Upgrade
