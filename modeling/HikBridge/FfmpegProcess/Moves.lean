import HikBridge.FfmpegProcess.Basic

/-!
This module contains what a step of an `FfmpegProcess` changes, in the words of the source.
-/

namespace HikBridge
namespace Spawning

open Descriptors

def OwnerPc.stage : OwnerPc → Nat
  | .unborn | .pipe2 _ | .fcntl .. | .close .. | .configure | .posixSpawn | .pipeEnds _ true => 0
  | .pipeEnds _ false => 1
  | .startErrorPump => 2
  | .log => 3
  | .constructed => 4
  | .stop .exchange _ => 5
  | .stop .kill _ => 6
  | .stop .waitpid _ => 7
  | .stop .sigkill _ => 8
  | .stop .reap _ => 9
  | .stop .joinPump _ => 10
  | .stop .closeInput _ => 11
  | .stop .joinErrorPump _ => 12
  | .stop .closeOutput _ => 13
  | .stop .closeError _ => 14
  | .stopped | .gone => 15

def PumpPc.isActive : PumpPc → Bool
  | .absent | .done => false
  | _ => true

def ErrorPumpPc.isActive : ErrorPumpPc → Bool
  | .absent | .done => false
  | _ => true

def Child.isUnreaped : Child → Bool
  | .running .. | .zombie => true
  | .none | .reaped => false

namespace FfmpegProcess

def Holds (p : FfmpegProcess) (fd : Nat) (stdio : Stdio) (side : End) : Prop :=
  p.ends stdio side = some fd ∨ p.member stdio side = some fd ∨ p.pc = .close stdio side fd

inductive Throws : OwnerPc → ProcessAct → Prop where
  | pipe2 (stdio : Stdio) : Throws (.pipe2 stdio) (.pipe2 false)
  | fcntl (stdio : Stdio) (side : End) : Throws (.fcntl stdio side) (.fcntl false)
  | configure : Throws .configure (.configure false)
  | posixSpawn : Throws .posixSpawn (.posixSpawn false)

inductive Stops : OwnerPc → ProcessAct → StopCaller → Prop where
  | startErrorPump : Stops .startErrorPump (.startErrorPump false) .constructor
  | log : Stops .log (.log false) .constructor
  | pipelineSwitch : Stops .constructed .stopForPipelineSwitch .pipelineSwitch
  | destroy : Stops .constructed .destroy .destructor
  | destroyStopped : Stops .stopped .destroy .destructor

inductive Reaps : OwnerPc → ProcessAct → StopCaller → Prop where
  | waitNoHang (late : Bool) (caller : StopCaller)
    : Reaps (.stop .waitpid caller) (.waitNoHang false late) caller
  | wait (caller : StopCaller) : Reaps (.stop .reap caller) (.wait false) caller

inductive Moves (number : Nat) (table : Table File) (p : FfmpegProcess)
    : ProcessAct → Table File → FfmpegProcess → Prop where
  | construct (hpc : p.pc = .unborn)
    : Moves number table p .construct table { p with pc := .pipe2 .input }
  | throws {act : ProcessAct} (hpc : Throws p.pc act) : Moves number table p act table p.throws
  | pipe2 {stdio : Stdio} {read write : Nat} (hpc : p.pc = .pipe2 stdio)
      (hread : table.get read = none) (hwrite : table.get write = none) (hne : write ≠ read)
    : Moves number table p (.pipe2 true)
        ((table.set read (some ⟨.pipe number stdio .read, true⟩)).set write
          (some ⟨.pipe number stdio .write, true⟩))
        { (p.setEnd stdio .read (some read)).setEnd stdio .write (some write) with
          pc := .fcntl stdio .read }
  | raise {stdio : Stdio} {side : End} {low raised : Nat} (hpc : p.pc = .fcntl stdio side)
      (hend : p.ends stdio side = some low) (hlow : low < 3) (hraised : 3 ≤ raised)
      (hfree : table.get raised = none)
    : Moves number table p (.fcntl true)
        (table.set raised (some ⟨.pipe number stdio side, true⟩))
        { p with pc := .close stdio side raised }
  | keep {stdio : Stdio} {side : End} {fd : Nat} {ok : Bool} (hpc : p.pc = .fcntl stdio side)
      (hend : p.ends stdio side = some fd) (hhigh : 3 ≤ fd)
    : Moves number table p (.fcntl ok) table { p with pc := afterRaise stdio side }
  | closeLow {stdio : Stdio} {side : End} {raised : Nat} (hpc : p.pc = .close stdio side raised)
    : Moves number table p .close (closing table (p.ends stdio side))
        { p.setEnd stdio side (some raised) with pc := afterRaise stdio side }
  | configured (hpc : p.pc = .configure)
    : Moves number table p (.configure true) table { p with pc := .posixSpawn }
  | spawned {childTable : Table File} (hpc : p.pc = .posixSpawn)
      (hspawn : table.spawn p.actions = some childTable)
    : Moves number table p (.posixSpawn true) table (p.spawned childTable)
  | closeEnd {stdio : Stdio} {side : End} {left : List (Stdio × End)} {thrown : Bool}
      (hpc : p.pc = .pipeEnds ((stdio, side) :: left) thrown)
    : Moves number table p .closeEnd (closing table (p.ends stdio side))
        { p.setEnd stdio side none with pc := .pipeEnds left thrown }
  | unwound (hpc : p.pc = .pipeEnds [] true)
    : Moves number table p .closeEnd table { p with pc := .stop .exchange .constructor }
  | handedOver (hpc : p.pc = .pipeEnds [] false)
    : Moves number table p .closeEnd table { p with pc := .startErrorPump }
  | startErrorPump (hpc : p.pc = .startErrorPump)
    : Moves number table p (.startErrorPump true) table { p with errorPump := .loop, pc := .log }
  | logged (hpc : p.pc = .log)
    : Moves number table p (.log true) table { p with pc := .constructed }
  | stops {act : ProcessAct} {caller : StopCaller} (hpc : Stops p.pc act caller)
    : Moves number table p act table { p with pc := .stop .exchange caller }
  | startPump (hpc : p.pc = .constructed) (hpump : p.pump = .absent)
    : Moves number table p .startPump table { p with pump := .loop }
  | read (hpc : p.pc = .constructed) : Moves number table p .read table p
  | stoppedBefore {caller : StopCaller} (hpc : p.pc = .stop .exchange caller)
      (hstop : p.stopRequested = true)
    : Moves number table p .exchange table { p with pc := afterStop caller }
  | exchange {caller : StopCaller} (hpc : p.pc = .stop .exchange caller)
      (hstop : p.stopRequested = false)
    : Moves number table p .exchange table
        { p with
          stopRequested := true
          pc := .stop (if p.hasPid then .kill else .joinPump) caller }
  | kill {caller : StopCaller} (hpc : p.pc = .stop .kill caller)
    : Moves number table p .kill table
        { p with child := p.child.signal caller.immediate, pc := .stop .waitpid caller }
  | waits {caller : StopCaller} {interrupted late : Bool} (hpc : p.pc = .stop .waitpid caller)
    : Moves number table p (.waitNoHang interrupted late) table
        { p with pc := .stop (if late then .sigkill else .waitpid) caller }
  | sigkill {caller : StopCaller} (hpc : p.pc = .stop .sigkill caller)
    : Moves number table p .sigkill table { p with child := p.child.signal true, pc := .stop .reap caller }
  | waitsOn {caller : StopCaller} (hpc : p.pc = .stop .reap caller)
    : Moves number table p (.wait true) table p
  | reaped {act : ProcessAct} {caller : StopCaller} (hpc : Reaps p.pc act caller)
      (hchild : ∀ childTable killed, p.child ≠ .running childTable killed)
    : Moves number table p act table
        { p with child := p.child.reap, hasPid := false, pc := .stop .joinPump caller }
  | joinPump {caller : StopCaller} (hpc : p.pc = .stop .joinPump caller)
      (hpump : p.pump = .absent ∨ p.pump = .done)
    : Moves number table p .joinPump table { p with pc := .stop .closeInput caller }
  | closeInput {caller : StopCaller} (hpc : p.pc = .stop .closeInput caller)
    : Moves number table p .closeInput (closing table p.inputFd)
        { p with inputFd := none, pc := .stop .joinErrorPump caller }
  | joinErrorPump {caller : StopCaller} (hpc : p.pc = .stop .joinErrorPump caller)
      (hpump : p.errorPump = .absent ∨ p.errorPump = .done)
    : Moves number table p .joinErrorPump table { p with pc := .stop .closeOutput caller }
  | closeOutput {caller : StopCaller} (hpc : p.pc = .stop .closeOutput caller)
    : Moves number table p .closeOutput (closing table p.outputFd)
        { p with outputFd := none, pc := .stop .closeError caller }
  | closeError {caller : StopCaller} (hpc : p.pc = .stop .closeError caller)
    : Moves number table p .closeError (closing table p.errorFd)
        { p with errorFd := none, pc := afterStop caller }
  | pump {act : PumpAct} {pump : PumpPc} (hactive : p.pump.isActive = true)
      (hpump : pump.isActive = true)
    : Moves number table p (.pump act) table { p with pump }
  | pumpClose (hpump : p.pump = .close)
    : Moves number table p (.pump .close) (closing table p.inputFd)
        { p with inputFd := none, pump := .done }
  | errorPump {act : ErrorPumpAct} {errorPump : ErrorPumpPc}
      (hactive : p.errorPump.isActive = true) (habsent : errorPump ≠ .absent)
    : Moves number table p (.errorPump act) table { p with errorPump }
  | exit {childTable : Table File} {killed : Bool} (hchild : p.child = .running childTable killed)
    : Moves number table p .exit table { p with child := .zombie }

section Step

variable {p p' : FfmpegProcess} {number : Nat} {table table' : Table File}

theorem pumpStep_moves {act : PumpAct} (h : p.pumpStep table act = some (table', p'))
    : Moves number table p (.pump act) table' p' := by
  unfold pumpStep at h
  split at h
  . next hpump =>
    cases h
    exact .pump (by rw [hpump]; rfl) (by split <;> rfl)
  . next hpump =>
    cases h
    exact .pump (by rw [hpump]; rfl) rfl
  . next hpump =>
    cases h
    exact .pump (by rw [hpump]; rfl) rfl
  . next hpump =>
    cases h
    exact .pump (by rw [hpump]; rfl) rfl
  . next hpump =>
    cases h
    exact .pump (by rw [hpump]; rfl) (by split <;> rfl)
  . next hpump =>
    cases h
    have hmoves : Moves number table p (.pump (.write .interrupted)) table { p with pump := p.pump } :=
      .pump (by rw [hpump]; rfl) (by rw [hpump]; rfl)
    exact hmoves
  . next hpump =>
    cases h
    exact .pump (by rw [hpump]; rfl) rfl
  . next hpump =>
    cases h
    exact .pumpClose hpump
  . cases h

theorem errorPumpStep_moves {act : ErrorPumpAct} (h : p.errorPumpStep act = some p')
    : Moves number table p (.errorPump act) table p' := by
  unfold errorPumpStep at h
  split at h
  . next hpump =>
    cases h
    exact .errorPump (by rw [hpump]; rfl) (by split <;> exact nofun)
  . next hpump =>
    cases h
    exact .errorPump (by rw [hpump]; rfl) nofun
  . next hpump =>
    cases h
    exact .errorPump (by rw [hpump]; rfl) (by split <;> exact nofun)
  . next hpump =>
    cases h
    exact .errorPump (by rw [hpump]; rfl) (by split <;> exact nofun)
  . cases h

theorem stopStep_moves {act : ProcessAct} {point : StopPc} {caller : StopCaller}
    (hpc : p.pc = .stop point caller) (h : p.stopStep table point caller act = some (table', p'))
    : Moves number table p act table' p' := by
  unfold stopStep at h
  split at h
  . split at h
    . next hstop =>
      cases h
      exact .stoppedBefore hpc hstop
    . next hstop =>
      cases h
      exact .exchange hpc (Bool.eq_false_iff.mpr hstop)
  . cases h
    exact .kill hpc
  . dsimp only at h
    split at h
    . cases h
      exact .waits hpc
    . split at h
      . cases h
        exact .waits hpc
      . next hinterrupted _ hchild =>
        cases h
        rw [Bool.eq_false_iff.mpr hinterrupted]
        exact .reaped (by rw [hpc]; exact .waitNoHang _ _) hchild
  . cases h
    exact .sigkill hpc
  . split at h
    . next hinterrupted =>
      cases h
      rw [hinterrupted]
      exact .waitsOn hpc
    . next hinterrupted =>
      split at h
      . cases h
      . next hchild =>
        cases h
        rw [Bool.eq_false_iff.mpr hinterrupted]
        exact .reaped (by rw [hpc]; exact .wait _) hchild
  . split at h
    . next hpump =>
      cases h
      exact .joinPump hpc hpump
    . cases h
  . cases h
    exact .closeInput hpc
  . split at h
    . next hpump =>
      cases h
      exact .joinErrorPump hpc hpump
    . cases h
  . cases h
    exact .closeOutput hpc
  . cases h
    exact .closeError hpc
  . cases h

theorem constructStep_moves {act : ProcessAct}
    (h : p.constructStep number table act = some (table', p'))
    : Moves number table p act table' p' := by
  unfold constructStep at h
  split at h
  . next hpc =>
    cases h
    exact .construct hpc
  . next hpc =>
    cases h
    exact .throws (by rw [hpc]; exact .pipe2 _)
  . next stdio hpc =>
    cases h
    have hne : (table.set (table.free 0) (some ⟨.pipe number stdio .read, true⟩)).free 0
        ≠ table.free 0 := by
      intro heq
      have hfree : (table.set (table.free 0) (some ⟨.pipe number stdio .read, true⟩)).get
          ((table.set (table.free 0) (some ⟨.pipe number stdio .read, true⟩)).free 0) = none :=
        Table.get_free
      rw [heq, Table.get_set_self] at hfree
      cases hfree
    refine .pipe2 hpc Table.get_free ?_ hne
    rw [← Table.get_set_of_ne hne]
    exact Table.get_free
  . next stdio side ok hpc =>
    split at h
    . next fd hend =>
      split at h
      . next hlow =>
        split at h
        . next hok =>
          cases h
          rw [hok]
          exact .raise hpc hend hlow Table.le_free Table.get_free
        . next hok =>
          cases h
          rw [Bool.eq_false_iff.mpr hok]
          exact .throws (by rw [hpc]; exact .fcntl _ _)
      . next hhigh =>
        cases h
        exact .keep hpc hend (Nat.le_of_not_lt hhigh)
    . cases h
  . next hpc =>
    cases h
    exact .closeLow hpc
  . next ok hpc =>
    cases ok with
    | false =>
      cases h
      exact .throws (by rw [hpc]; exact .configure)
    | true =>
      cases h
      exact .configured hpc
  . next hpc =>
    cases h
    exact .throws (by rw [hpc]; exact .posixSpawn)
  . next hpc =>
    obtain ⟨childTable, hspawn, heq⟩ := Option.map_eq_some_iff.mp h
    cases heq
    exact .spawned hpc hspawn
  . next hpc =>
    cases h
    exact .closeEnd hpc
  . next thrown hpc =>
    cases thrown with
    | false =>
      cases h
      exact .handedOver hpc
    | true =>
      cases h
      exact .unwound hpc
  . next hpc =>
    cases h
    exact .startErrorPump hpc
  . next hpc =>
    cases h
    exact .stops (by rw [hpc]; exact .startErrorPump)
  . next ok hpc =>
    cases ok with
    | false =>
      cases h
      exact .stops (by rw [hpc]; exact .log)
    | true =>
      cases h
      exact .logged hpc
  . cases h

theorem useStep_moves {act : ProcessAct} (h : p.useStep act = some p')
    : Moves number table p act table p' := by
  unfold useStep at h
  split at h
  . next hpc =>
    split at h
    . next hpump =>
      cases h
      exact .startPump hpc hpump
    . cases h
  . next hpc =>
    cases h
    exact .read hpc
  . next hpc =>
    cases h
    exact .stops (by rw [hpc]; exact .pipelineSwitch)
  . next hpc =>
    cases h
    exact .stops (by rw [hpc]; exact .destroy)
  . next hpc =>
    cases h
    exact .stops (by rw [hpc]; exact .destroyStopped)
  . cases h

theorem moves_of_step {act : ProcessAct} (h : p.step number table act = some (table', p'))
    : Moves number table p act table' p' := by
  unfold step at h
  split at h
  . exact pumpStep_moves h
  . obtain ⟨q, hq, heq⟩ := Option.map_eq_some_iff.mp h
    cases heq
    exact errorPumpStep_moves hq
  . obtain ⟨q, hq, heq⟩ := Option.map_eq_some_iff.mp h
    cases heq
    unfold exit at hq
    split at hq
    . next hchild =>
      cases hq
      exact .exit hchild
    . cases hq
  . next hpc => exact stopStep_moves hpc h
  . obtain ⟨q, hq, heq⟩ := Option.map_eq_some_iff.mp h
    cases heq
    exact useStep_moves hq
  . obtain ⟨q, hq, heq⟩ := Option.map_eq_some_iff.mp h
    cases heq
    exact useStep_moves hq
  . exact constructStep_moves h

theorem pc_of_posixSpawn {ok : Bool} (h : Moves number table p (.posixSpawn ok) table' p')
    : p.pc = .posixSpawn := by
  cases h with
  | spawned hpc => exact hpc
  | throws hpc =>
    generalize p.pc = pc at hpc
    cases hpc
    rfl
  | stops hpc =>
    generalize p.pc = pc at hpc
    cases hpc
  | reaped hpc =>
    generalize p.pc = pc at hpc
    cases hpc

theorem pc_of_read (h : Moves number table p .read table' p') : p.pc = .constructed := by
  cases h with
  | read hpc => exact hpc
  | throws hpc =>
    generalize p.pc = pc at hpc
    cases hpc
  | stops hpc =>
    generalize p.pc = pc at hpc
    cases hpc
  | reaped hpc =>
    generalize p.pc = pc at hpc
    cases hpc

def usesPid : ProcessAct → Bool
  | .kill | .waitNoHang .. | .sigkill | .wait _ => true
  | _ => false

theorem pc_of_usesPid (h : Moves number table p act table' p') (hpid : usesPid act = true)
    : ∃ point caller, p.pc = .stop point caller
        ∧ (point = .kill ∨ point = .waitpid ∨ point = .sigkill ∨ point = .reap) := by
  cases h with
  | kill hpc => exact ⟨_, _, hpc, .inl rfl⟩
  | waits hpc => exact ⟨_, _, hpc, .inr (.inl rfl)⟩
  | sigkill hpc => exact ⟨_, _, hpc, .inr (.inr (.inl rfl))⟩
  | waitsOn hpc => exact ⟨_, _, hpc, .inr (.inr (.inr rfl))⟩
  | reaped hpc =>
    generalize p.pc = pc at hpc
    cases hpc with
    | waitNoHang => exact ⟨_, _, rfl, .inr (.inl rfl)⟩
    | wait => exact ⟨_, _, rfl, .inr (.inr (.inr rfl))⟩
  | throws hpc =>
    generalize p.pc = pc at hpc
    cases hpc <;> cases hpid
  | stops hpc =>
    generalize p.pc = pc at hpc
    cases hpc <;> cases hpid
  | construct | pipe2 | raise | keep | closeLow | configured | spawned | closeEnd | unwound
  | handedOver | startErrorPump | logged | startPump | read | stoppedBefore | exchange | joinPump
  | closeInput | joinErrorPump | closeOutput | closeError | pump | pumpClose | errorPump | exit =>
    cases hpid

theorem isActive_of_pump {act : PumpAct} (h : Moves number table p (.pump act) table' p')
    : p.pump.isActive = true := by
  cases h with
  | pump hactive => exact hactive
  | pumpClose hpump =>
    rw [hpump]
    rfl
  | throws hpc =>
    generalize p.pc = pc at hpc
    cases hpc
  | stops hpc =>
    generalize p.pc = pc at hpc
    cases hpc
  | reaped hpc =>
    generalize p.pc = pc at hpc
    cases hpc

theorem isActive_of_errorPump {act : ErrorPumpAct}
    (h : Moves number table p (.errorPump act) table' p') : p.errorPump.isActive = true := by
  cases h with
  | errorPump hactive => exact hactive
  | throws hpc =>
    generalize p.pc = pc at hpc
    cases hpc
  | stops hpc =>
    generalize p.pc = pc at hpc
    cases hpc
  | reaped hpc =>
    generalize p.pc = pc at hpc
    cases hpc

end Step
end FfmpegProcess
end Spawning
end HikBridge
