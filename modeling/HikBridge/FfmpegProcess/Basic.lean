import HikBridge.Lib.Descriptors
import HikBridge.Lib.Machine

/-!
This module contains the Linux life of the `FfmpegProcess` objects of the bridge, one system call at
a time: `start_linux`, the pump of the input, the reader of the diagnostics, `stop_process` and the
children themselves. All of them work on the one descriptor table of the bridge, beside the other
threads, which open and close descriptors of their own.
-/

namespace HikBridge
namespace Spawning

open Descriptors

inductive Stdio where
  | input
  | output
  | error
  deriving DecidableEq, Repr

inductive End where
  | read
  | write
  deriving DecidableEq, Repr

/--
What a descriptor of the bridge is open on. `socket` is made by `create_socket` or `accept_client`,
`log` by the `std::ofstream` of the log, `foreign` by the SDK or by whoever started the bridge.
-/
inductive File where
  | pipe (process : Nat) (stdio : Stdio) (side : End)
  | socket
  | log
  | foreign
  deriving DecidableEq, Repr

def File.isPipe : File → Bool
  | .pipe .. => true
  | _ => false

-- The end of each pipe that FFmpeg works on, the other one stays with the bridge.
def Stdio.childEnd : Stdio → End
  | .input => .read
  | .output | .error => .write

def Stdio.number : Stdio → Nat
  | .input => 0
  | .output => 1
  | .error => 2

-- The order in which `start_linux` opens the pipes and `~PipeEnds` closes them.
def stdios : List Stdio := [.input, .output, .error]

def pipeEnds : List (Stdio × End) := stdios.flatMap fun stdio => [(stdio, .read), (stdio, .write)]

inductive StopCaller where
  | pipelineSwitch
  | destructor
  | constructor
  deriving DecidableEq, Repr

def StopCaller.immediate : StopCaller → Bool
  | .destructor => false
  | .pipelineSwitch | .constructor => true

inductive StopPc where
  | exchange
  | kill
  | waitpid
  | sigkill
  | reap
  | joinPump
  | closeInput
  | joinErrorPump
  | closeOutput
  | closeError
  deriving DecidableEq, Repr

inductive OwnerPc where
  | unborn
  | pipe2 (stdio : Stdio)
  | fcntl (stdio : Stdio) (side : End)
  | close (stdio : Stdio) (side : End) (raised : Nat)
  | configure
  | posixSpawn
  | pipeEnds (left : List (Stdio × End)) (thrown : Bool)
  | startErrorPump
  | log
  | constructed
  | stop (point : StopPc) (caller : StopCaller)
  | stopped
  | gone
  deriving DecidableEq, Repr

inductive PumpPc where
  | absent
  | loop
  | pop
  | write
  | close
  | done
  deriving DecidableEq, Repr

inductive ErrorPumpPc where
  | absent
  | loop
  | poll
  | read
  | done
  deriving DecidableEq, Repr

inductive Child where
  | none
  | running (table : Table File) (killed : Bool)
  | zombie
  | reaped

namespace Child

-- `kill` with `SIGKILL` or with `SIGTERM`, which FFmpeg handles as it likes
def signal (hard : Bool) : Child → Child
  | .running table killed => .running table (killed || hard)
  | child => child

-- What a `waitpid` that does not find the child running leaves of it.
def reap : Child → Child
  | .zombie => .reaped
  | child => child

end Child

structure FfmpegProcess where
  pc : OwnerPc := .unborn
  ends : Stdio → End → Option Nat := fun _ _ => Option.none
  hasPid : Bool := false
  inputFd : Option Nat := none
  outputFd : Option Nat := none
  errorFd : Option Nat := none
  stopRequested : Bool := false
  pump : PumpPc := .absent
  errorPump : ErrorPumpPc := .absent
  child : Child := .none

structure BridgeProcess where
  table : Table File
  processes : Nat → FfmpegProcess := fun _ => {}

inductive WriteResult where
  | wrote (all : Bool)
  | interrupted
  | failed
  deriving DecidableEq, Repr

inductive PumpAct where
  | checkStop
  | popped
  | continues
  | breaks
  | write (result : WriteResult)
  | close
  deriving DecidableEq, Repr

inductive ErrorPumpAct where
  | checkFd
  | poll (ready : Bool)
  | read (more : Bool)
  deriving DecidableEq, Repr

inductive ProcessAct where
  | construct
  | pipe2 (ok : Bool)
  | fcntl (ok : Bool)
  | close
  | configure (ok : Bool)
  | posixSpawn (ok : Bool)
  | closeEnd
  | startErrorPump (ok : Bool)
  | log (ok : Bool)
  | startPump
  | read
  | stopForPipelineSwitch
  | destroy
  | exchange
  | kill
  | waitNoHang (interrupted : Bool) (late : Bool)
  | sigkill
  | wait (interrupted : Bool)
  | joinPump
  | closeInput
  | joinErrorPump
  | closeOutput
  | closeError
  | pump (act : PumpAct)
  | errorPump (act : ErrorPumpAct)
  | exit
  deriving DecidableEq, Repr

inductive Event where
  | process (number : Nat) (act : ProcessAct)
  | openSocket
  | openLog
  | openForeign (cloexec : Bool)
  | closeOther (fd : Nat)
  deriving DecidableEq, Repr

namespace FfmpegProcess

variable (p : FfmpegProcess)

def setEnd (stdio : Stdio) (side : End) (fd : Option Nat) : FfmpegProcess :=
  { p with ends := fun stdio' side' =>
      if stdio' = stdio ∧ side' = side then fd else p.ends stdio' side' }

-- `input_fd_`, `output_fd_` and `error_fd_`
def member : Stdio → End → Option Nat
  | .input, .write => p.inputFd
  | .output, .read => p.outputFd
  | .error, .read => p.errorFd
  | _, _ => none

def afterPipe : Stdio → OwnerPc
  | .input => .pipe2 .output
  | .output => .pipe2 .error
  | .error => .configure

def afterRaise (stdio : Stdio) : End → OwnerPc
  | .read => .fcntl stdio .write
  | .write => afterPipe stdio

def throws : FfmpegProcess := { p with pc := .pipeEnds pipeEnds true }

def actions : List Table.Action :=
  (stdios.map fun stdio => (.dup2 ((p.ends stdio stdio.childEnd).getD 0) stdio.number))
    ++ pipeEnds.map fun e => .close ((p.ends e.1 e.2).getD 0)

def spawned (table : Table File) : FfmpegProcess :=
  { p with
    hasPid := true
    inputFd := p.ends .input .write
    outputFd := p.ends .output .read
    errorFd := p.ends .error .read
    ends := fun stdio side => if side = stdio.childEnd then p.ends stdio side else none
    child := .running table false
    pc := .pipeEnds pipeEnds false }

def afterStop (caller : StopCaller) : OwnerPc :=
  match caller with
  | .pipelineSwitch => .stopped
  | .destructor | .constructor => .gone

-- `close(fd)` for a descriptor that is not -1
def closing (table : Table File) (fd : Option Nat) : Table File :=
  match fd with
  | some fd => table.close fd
  | none => table

def pumpStep (table : Table File) (act : PumpAct) : Option (Table File × FfmpegProcess) :=
  match p.pump, act with
  | .loop, .checkStop =>
    some (table, { p with pump := if p.stopRequested then .close else .pop })
  | .pop, .popped => some (table, { p with pump := .write })
  | .pop, .continues => some (table, { p with pump := .loop })
  | .pop, .breaks => some (table, { p with pump := .close })
  | .write, .write (.wrote all) => some (table, { p with pump := if all then .loop else .write })
  | .write, .write .interrupted => some (table, p)
  | .write, .write .failed => some (table, { p with pump := .close })
  | .close, .close => some (closing table p.inputFd, { p with inputFd := none, pump := .done })
  | _, _ => none

def errorPumpStep (act : ErrorPumpAct) : Option FfmpegProcess :=
  match p.errorPump, act with
  | .loop, .checkFd =>
    some { p with errorPump := if p.errorFd.isNone then .done else .poll }
  | .poll, .poll true => some { p with errorPump := .read }
  | .poll, .poll false => some { p with errorPump := if p.stopRequested then .done else .loop }
  | .read, .read more => some { p with errorPump := if more then .loop else .done }
  | _, _ => none

def stopStep (table : Table File) (point : StopPc) (caller : StopCaller) (act : ProcessAct)
    : Option (Table File × FfmpegProcess) :=
  match point, act with
  | .exchange, .exchange =>
    if p.stopRequested then
      some (table, { p with pc := afterStop caller })
    else
      some (table, { p with
        stopRequested := true
        pc := .stop (if p.hasPid then .kill else .joinPump) caller })
  | .kill, .kill => some (table, { p with
    child := p.child.signal caller.immediate
    pc := .stop .waitpid caller })
  | .waitpid, .waitNoHang interrupted late =>
    let again := .stop (if late then .sigkill else .waitpid) caller
    if interrupted then
      some (table, { p with pc := again })
    else
      match p.child with
      | .running _ _ => some (table, { p with pc := again })
      | _ => some (table, { p with
        child := p.child.reap
        hasPid := false
        pc := .stop .joinPump caller })
  | .sigkill, .sigkill => some (table, { p with child := p.child.signal true, pc := .stop .reap caller })
  | .reap, .wait interrupted =>
    if interrupted then
      some (table, p)
    else
      match p.child with
      | .running _ _ => none
      | _ => some (table, { p with
        child := p.child.reap
        hasPid := false
        pc := .stop .joinPump caller })
  | .joinPump, .joinPump =>
    if p.pump = .absent ∨ p.pump = .done then
      some (table, { p with pc := .stop .closeInput caller })
    else
      none
  | .closeInput, .closeInput =>
    some (closing table p.inputFd, { p with inputFd := none, pc := .stop .joinErrorPump caller })
  | .joinErrorPump, .joinErrorPump =>
    if p.errorPump = .absent ∨ p.errorPump = .done then
      some (table, { p with pc := .stop .closeOutput caller })
    else
      none
  | .closeOutput, .closeOutput =>
    some (closing table p.outputFd, { p with outputFd := none, pc := .stop .closeError caller })
  | .closeError, .closeError =>
    some (closing table p.errorFd, { p with errorFd := none, pc := afterStop caller })
  | _, _ => none

def constructStep (number : Nat) (table : Table File) (act : ProcessAct)
    : Option (Table File × FfmpegProcess) :=
  match p.pc, act with
  | .unborn, .construct => some (table, { p with pc := .pipe2 .input })
  | .pipe2 _, .pipe2 false => some (table, p.throws)
  | .pipe2 stdio, .pipe2 true =>
    let read := table.free 0
    let table := table.set read (some ⟨.pipe number stdio .read, true⟩)
    let write := table.free 0
    let table := table.set write (some ⟨.pipe number stdio .write, true⟩)
    some (table, { (p.setEnd stdio .read (some read)).setEnd stdio .write (some write) with
      pc := .fcntl stdio .read })
  | .fcntl stdio side, .fcntl ok =>
    match p.ends stdio side with
    | some fd =>
      if fd < 3 then
        if ok then
          -- `F_DUPFD_CLOEXEC`
          let raised := table.free 3
          some (table.set raised (some ⟨.pipe number stdio side, true⟩),
            { p with pc := .close stdio side raised })
        else
          some (table, p.throws)
      else
        some (table, { p with pc := afterRaise stdio side })
    | none => none
  | .close stdio side raised, .close =>
    some (closing table (p.ends stdio side),
      { p.setEnd stdio side (some raised) with pc := afterRaise stdio side })
  | .configure, .configure ok => some (table, if ok then { p with pc := .posixSpawn } else p.throws)
  | .posixSpawn, .posixSpawn false => some (table, p.throws)
  | .posixSpawn, .posixSpawn true =>
    (table.spawn p.actions).map fun childTable => (table, p.spawned childTable)
  | .pipeEnds ((stdio, side) :: left) thrown, .closeEnd =>
    some (closing table (p.ends stdio side),
      { p.setEnd stdio side none with pc := .pipeEnds left thrown })
  | .pipeEnds [] thrown, .closeEnd =>
    some (table, { p with pc := if thrown then .stop .exchange .constructor else .startErrorPump })
  | .startErrorPump, .startErrorPump true =>
    some (table, { p with errorPump := .loop, pc := .log })
  | .startErrorPump, .startErrorPump false =>
    some (table, { p with pc := .stop .exchange .constructor })
  -- the log line at the end of the `try` block
  | .log, .log ok =>
    some (table, { p with pc := if ok then .constructed else .stop .exchange .constructor })
  | _, _ => none

def useStep (act : ProcessAct) : Option FfmpegProcess :=
  match p.pc, act with
  | .constructed, .startPump => if p.pump = .absent then some { p with pump := .loop } else none
  | .constructed, .read => some p
  | .constructed, .stopForPipelineSwitch => some { p with pc := .stop .exchange .pipelineSwitch }
  | .constructed, .destroy => some { p with pc := .stop .exchange .destructor }
  | .stopped, .destroy => some { p with pc := .stop .exchange .destructor }
  | _, _ => none

def exit : Option FfmpegProcess :=
  match p.child with
  | .running _ _ => some { p with child := .zombie }
  | _ => none

def step (number : Nat) (table : Table File) (act : ProcessAct)
    : Option (Table File × FfmpegProcess) :=
  match act, p.pc with
  | .pump act, _ => p.pumpStep table act
  | .errorPump act, _ => (p.errorPumpStep act).map (table, ·)
  | .exit, _ => p.exit.map (table, ·)
  | act, .stop point caller => p.stopStep table point caller act
  | act, .constructed | act, .stopped => (p.useStep act).map (table, ·)
  | act, _ => p.constructStep number table act

end FfmpegProcess

namespace BridgeProcess

def step (s : BridgeProcess) : Event → Option BridgeProcess
  | .process number act =>
    ((s.processes number).step number s.table act).map fun next =>
      { table := next.1, processes := Function.update s.processes number next.2 }
  | .openSocket => some { s with table := s.table.set (s.table.free 0) (some ⟨.socket, true⟩) }
  | .openLog => some { s with table := s.table.set (s.table.free 0) (some ⟨.log, false⟩) }
  | .openForeign cloexec =>
    some { s with table := s.table.set (s.table.free 0) (some ⟨.foreign, cloexec⟩) }
  | .closeOther fd =>
    match s.table.get fd with
    | some d => if d.file.isPipe then none else some { s with table := s.table.close fd }
    | none => none

end BridgeProcess
end Spawning
end HikBridge
