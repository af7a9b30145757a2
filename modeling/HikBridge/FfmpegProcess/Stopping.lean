import HikBridge.FfmpegProcess.Inheritance

/-!
This module contains the proof that `stop_process` cannot get stuck: whatever its threads and its
child are doing when it begins, it can join and reap them all.
-/

namespace HikBridge
namespace Spawning

open Descriptors

def PumpPc.toDo : PumpPc → Nat
  | .loop | .pop | .write => 2
  | .close => 1
  | .absent | .done => 0

def ErrorPumpPc.toDo : ErrorPumpPc → Nat
  | .loop => 3
  | .poll => 2
  | .read => 1
  | .absent | .done => 0

def Child.toDo : Child → Nat
  | .running .. => 1
  | .none | .zombie | .reaped => 0

theorem OwnerPc.of_stage {pc : OwnerPc} (h : 5 ≤ pc.stage)
    : (∃ point caller, pc = .stop point caller) ∨ pc = .stopped ∨ pc = .gone := by
  cases pc with
  | stop point caller => exact .inl ⟨point, caller, rfl⟩
  | stopped => exact .inr (.inl rfl)
  | gone => exact .inr (.inr rfl)
  | pipeEnds left thrown => cases thrown <;> exact absurd h (by simp [OwnerPc.stage])
  | unborn | pipe2 | fcntl | close | configure | posixSpawn | startErrorPump | log | constructed =>
    exact absurd h (by simp [OwnerPc.stage])

namespace FfmpegProcess

def toDo (p : FfmpegProcess) : Nat :=
  10 * (15 - p.pc.stage) + p.pump.toDo + p.errorPump.toDo + p.child.toDo

/--
The steps that depend on nobody else: the child ends because it is killed, a write fails because
nobody can read any more, the diagnostics end because nobody can write any more.
-/
def Unhindered (p : FfmpegProcess) : ProcessAct → Prop
  | .exit => ∃ childTable, p.child = .running childTable true
  | .pump (.write result) => result = .failed ∧ p.child.isUnreaped = false
  | .errorPump (.read more) => more = false ∧ p.child.isUnreaped = false
  | .waitNoHang interrupted _ | .wait interrupted => interrupted = false
  | _ => True

def Progress (p : FfmpegProcess) (number : Nat) (table : Table File) : Prop :=
  ∃ act table' p',
    p.step number table act = some (table', p')
      ∧ 5 ≤ p'.pc.stage
      ∧ p'.toDo < p.toDo
      ∧ p.Unhindered act

variable {p p' : FfmpegProcess} {number : Nat} {table table' : Table File}

theorem toDo_signal (child : Child) (hard : Bool) : (child.signal hard).toDo = child.toDo := by
  cases child <;> rfl

theorem toDo_reap (child : Child) : child.reap.toDo ≤ child.toDo := by
  cases child <;> simp [Child.reap, Child.toDo]

theorem progress_of_owner {act : ProcessAct} (hstep : p.step number table act = some (table', p'))
    (hstage : p.pc.stage < p'.pc.stage) (hlow : 4 ≤ p.pc.stage) (hhigh : p.pc.stage ≤ 14)
    (hpump : p'.pump = p.pump) (herrorPump : p'.errorPump = p.errorPump)
    (hchild : p'.child.toDo ≤ p.child.toDo) (hunhindered : p.Unhindered act)
    : p.Progress number table := by
  refine ⟨act, table', p', hstep, by omega, ?_, hunhindered⟩
  unfold toDo
  rw [hpump, herrorPump]
  omega

theorem progress_joinPump {caller : StopCaller} (hpc : p.pc = .stop .joinPump caller)
    (hrequested : p.stopRequested = true) (hreaped : p.child.isUnreaped = false)
    : p.Progress number table := by
  have hstage : p.pc.stage = 10 := by rw [hpc]; rfl
  have hlow : 5 ≤ p.pc.stage := by omega
  cases hpump : p.pump with
  | absent | done =>
    refine @progress_of_owner p { p with pc := .stop .closeInput caller } number table table .joinPump
      ?_ ?_ (by omega) (by omega) rfl rfl (Nat.le_refl _) trivial
    . simp [step, hpc, stopStep, hpump]
    . simp [hpc, OwnerPc.stage]
  | loop =>
    refine ⟨.pump .checkStop, table, { p with pump := .close }, ?_, hlow, ?_, trivial⟩
    . simp [step, pumpStep, hpump, hrequested]
    . simp [toDo, hpump, PumpPc.toDo]
  | pop =>
    refine ⟨.pump .breaks, table, { p with pump := .close }, ?_, hlow, ?_, trivial⟩
    . simp [step, pumpStep, hpump]
    . simp [toDo, hpump, PumpPc.toDo]
  | write =>
    refine ⟨.pump (.write .failed), table, { p with pump := .close }, ?_, hlow, ?_, rfl, hreaped⟩
    . simp [step, pumpStep, hpump]
    . simp [toDo, hpump, PumpPc.toDo]
  | close =>
    refine ⟨.pump .close, closing table p.inputFd, { p with inputFd := none, pump := .done }, ?_,
      hlow, ?_, trivial⟩
    . simp [step, pumpStep, hpump]
    . simp [toDo, hpump, PumpPc.toDo]

theorem progress_joinErrorPump {caller : StopCaller} (h : p.Inv)
    (hpc : p.pc = .stop .joinErrorPump caller) (hreaped : p.child.isUnreaped = false)
    : p.Progress number table := by
  have hstage : p.pc.stage = 12 := by rw [hpc]; rfl
  have hlow : 5 ≤ p.pc.stage := by omega
  cases hpump : p.errorPump with
  | absent | done =>
    refine @progress_of_owner p { p with pc := .stop .closeOutput caller } number table table
      .joinErrorPump ?_ ?_ (by omega) (by omega) rfl rfl (Nat.le_refl _) trivial
    . simp [step, hpc, stopStep, hpump]
    . simp [hpc, OwnerPc.stage]
  | loop =>
    have herror : p.errorFd.isNone = false := by
      rw [Bool.eq_false_iff, ne_eq, Option.isNone_iff_eq_none]
      exact (h.errorPump (by rw [hpump]; rfl)).1
    refine ⟨.errorPump .checkFd, table, { p with errorPump := .poll }, ?_, hlow, ?_, trivial⟩
    . simp [step, errorPumpStep, hpump, herror]
    . simp [toDo, hpump, ErrorPumpPc.toDo]
  | poll =>
    refine ⟨.errorPump (.poll true), table, { p with errorPump := .read }, ?_, hlow, ?_, trivial⟩
    . simp [step, errorPumpStep, hpump]
    . simp [toDo, hpump, ErrorPumpPc.toDo]
  | read =>
    refine ⟨.errorPump (.read false), table, { p with errorPump := .done }, ?_, hlow, ?_, rfl, hreaped⟩
    . simp [step, errorPumpStep, hpump]
    . simp [toDo, hpump, ErrorPumpPc.toDo]

theorem progress_waitpid {caller : StopCaller} (hpc : p.pc = .stop .waitpid caller)
    : p.Progress number table := by
  have hstage : p.pc.stage = 7 := by rw [hpc]; rfl
  cases hchild : p.child with
  | running childTable killed =>
    refine @progress_of_owner p { p with pc := .stop .sigkill caller } number table table
      (.waitNoHang false true) ?_ ?_ (by omega) (by omega) rfl rfl (Nat.le_refl _) rfl
    . simp [step, hpc, stopStep, hchild]
    . simp [hpc, OwnerPc.stage]
  | none | zombie | reaped =>
    refine @progress_of_owner p
      { p with child := p.child.reap, hasPid := false, pc := .stop .joinPump caller } number table table
      (.waitNoHang false true) ?_ ?_ (by omega) (by omega) rfl rfl (toDo_reap _) rfl
    . simp [step, hpc, stopStep, hchild]
    . simp [hpc, OwnerPc.stage]

theorem progress_reap {caller : StopCaller} (h : p.Inv) (hpc : p.pc = .stop .reap caller)
    : p.Progress number table := by
  have hstage : p.pc.stage = 9 := by rw [hpc]; rfl
  have hlow : 5 ≤ p.pc.stage := by omega
  cases hchild : p.child with
  | running childTable killed =>
    have hkilled := h.killed hstage childTable killed hchild
    subst hkilled
    refine ⟨.exit, table, { p with child := .zombie }, ?_, hlow, ?_, childTable, hchild⟩
    . simp [step, exit, hchild]
    . simp [toDo, hchild, Child.toDo]
  | none | zombie | reaped =>
    refine @progress_of_owner p
      { p with child := p.child.reap, hasPid := false, pc := .stop .joinPump caller } number table table
      (.wait false) ?_ ?_ (by omega) (by omega) rfl rfl (toDo_reap _) rfl
    . simp [step, hpc, stopStep, hchild]
    . simp [hpc, OwnerPc.stage]

theorem progress_exchange {caller : StopCaller} (hpc : p.pc = .stop .exchange caller)
    : p.Progress number table := by
  have hstage : p.pc.stage = 5 := by rw [hpc]; rfl
  by_cases hrequested : p.stopRequested = true
  . refine @progress_of_owner p { p with pc := afterStop caller } number table table .exchange
      ?_ ?_ (by omega) (by omega) rfl rfl (Nat.le_refl _) trivial
    . simp [step, hpc, stopStep, hrequested]
    . rw [hstage]
      exact Nat.lt_of_lt_of_eq (by decide) (stage_afterStop caller).symm
  . refine @progress_of_owner p
      { p with stopRequested := true, pc := .stop (if p.hasPid then .kill else .joinPump) caller }
      number table table .exchange ?_ ?_ (by omega) (by omega) rfl rfl (Nat.le_refl _) trivial
    . simp [step, hpc, stopStep, hrequested]
    . cases hpid : p.hasPid <;> simp [hpc, OwnerPc.stage]

theorem progress (h : p.Inv) (hstop : 5 ≤ p.pc.stage) (hnot : p.pc.stage ≠ 15)
    : p.Progress number table := by
  have hreaped : 10 ≤ p.pc.stage → p.child.isUnreaped = false := by
    intro hstage
    rw [← h.pid, Bool.eq_false_iff, ne_eq, h.waits (by omega)]
    omega
  have hrequested : 6 ≤ p.pc.stage → p.stopRequested = true := by
    intro hstage
    by_contra hfalse
    have := h.fresh (Bool.eq_false_iff.mpr hfalse)
    omega
  rcases OwnerPc.of_stage hstop with ⟨point, caller, hpc⟩ | hpc | hpc
  . rw [hpc] at hreaped hrequested
    cases point with
    | exchange => exact progress_exchange hpc
    | kill =>
      refine @progress_of_owner p
        { p with child := p.child.signal caller.immediate, pc := .stop .waitpid caller } number table
        table .kill ?_ ?_ ?_ ?_ rfl rfl (Nat.le_of_eq (toDo_signal _ _)) trivial
      . simp [step, hpc, stopStep]
      all_goals rw [hpc]; simp [OwnerPc.stage]
    | waitpid => exact progress_waitpid hpc
    | sigkill =>
      refine @progress_of_owner p
        { p with child := p.child.signal true, pc := .stop .reap caller } number table
        table .sigkill ?_ ?_ ?_ ?_ rfl rfl (Nat.le_of_eq (toDo_signal _ _)) trivial
      . simp [step, hpc, stopStep]
      all_goals rw [hpc]; simp [OwnerPc.stage]
    | reap => exact progress_reap h hpc
    | joinPump =>
      exact progress_joinPump hpc (hrequested (by simp [OwnerPc.stage]))
        (hreaped (by simp [OwnerPc.stage]))
    | closeInput =>
      refine @progress_of_owner p { p with inputFd := none, pc := .stop .joinErrorPump caller } number
        table (closing table p.inputFd) .closeInput ?_ ?_ ?_ ?_ rfl rfl (Nat.le_refl _) trivial
      . simp [step, hpc, stopStep]
      all_goals rw [hpc]; simp [OwnerPc.stage]
    | joinErrorPump =>
      exact progress_joinErrorPump h hpc (hreaped (by simp [OwnerPc.stage]))
    | closeOutput =>
      refine @progress_of_owner p { p with outputFd := none, pc := .stop .closeError caller } number
        table (closing table p.outputFd) .closeOutput ?_ ?_ ?_ ?_ rfl rfl (Nat.le_refl _) trivial
      . simp [step, hpc, stopStep]
      all_goals rw [hpc]; simp [OwnerPc.stage]
    | closeError =>
      refine @progress_of_owner p { p with errorFd := none, pc := afterStop caller } number
        table (closing table p.errorFd) .closeError ?_ ?_ ?_ ?_ rfl rfl (Nat.le_refl _) trivial
      . simp [step, hpc, stopStep]
      . rw [hpc]
        exact Nat.lt_of_lt_of_eq (Nat.lt_succ_self 14) (stage_afterStop caller).symm
      all_goals rw [hpc]; simp [OwnerPc.stage]
  all_goals
    rw [hpc] at hnot
    exact absurd rfl hnot

end FfmpegProcess

namespace BridgeProcess

def OnItsOwn (number : Nat) (s : BridgeProcess) : Event → Prop
  | .process n act =>
    n = number ∧
      match act with
      | .exit => ∃ childTable, (s.processes number).child = .running childTable true
      | .pump (.write result) => result = .failed ∧ ¬ s.IsOpen (.pipe number .input .read)
      | .errorPump (.read more) => more = false ∧ ¬ s.IsOpen (.pipe number .error .write)
      | .waitNoHang interrupted _ | .wait interrupted => interrupted = false
      | _ => True
  | _ => False

variable {s s' : BridgeProcess}

theorem not_isOpen_childEnd (h : s.Inv) (hchild : s.ChildInv) {number : Nat}
    (hstage : 2 ≤ (s.processes number).pc.stage)
    (hreaped : (s.processes number).child.isUnreaped = false) (stdio : Stdio)
    : ¬ s.IsOpen (.pipe number stdio stdio.childEnd) := by
  rw [isOpen_pipe_iff h hchild]
  rintro (⟨fd, hheld⟩ | ⟨-, childTable, killed, hrunning⟩)
  . rw [FfmpegProcess.holds_iff_member (h.processes number) hstage] at hheld
    cases stdio <;> cases hheld
  . rw [hrunning] at hreaped
    cases hreaped

theorem onItsOwn_of_unhindered (h : s.Inv) (hchild : s.ChildInv) {number : Nat}
    (hstage : 2 ≤ (s.processes number).pc.stage) {act : ProcessAct}
    (hact : (s.processes number).Unhindered act) : OnItsOwn number s (.process number act) := by
  refine ⟨rfl, ?_⟩
  cases act with
  | pump pumpAct =>
    cases pumpAct with
    | write result => exact ⟨hact.1, not_isOpen_childEnd h hchild hstage hact.2 .input⟩
    | checkStop | popped | continues | breaks | close => trivial
  | errorPump errorPumpAct =>
    cases errorPumpAct with
    | read more => exact ⟨hact.1, not_isOpen_childEnd h hchild hstage hact.2 .error⟩
    | checkFd | poll => trivial
  | exit | waitNoHang | wait => exact hact
  | construct | pipe2 | fcntl | close | configure | posixSpawn | closeEnd | startErrorPump | log
  | startPump | read | stopForPipelineSwitch | destroy | exchange | kill | sigkill | joinPump
  | closeInput | joinErrorPump | closeOutput | closeError => trivial

def sampleDestroy : List Event :=
  sampleLife ++ [.process 0 .startPump, .process 0 (.pump .checkStop), .process 0 .destroy]

theorem sampleDestroy_runs : (Machine.run step sampleStart sampleDestroy).isSome = true := by
  decide

def sampleStopping : BridgeProcess :=
  (Machine.run step sampleStart sampleDestroy).get sampleDestroy_runs

/--
In whatever state `stop_process` finds the pump, the reader of the diagnostics and the child, and
wherever it is itself, it can come to its end by steps that depend on no other thread or process.
-/
theorem stop_process_can_finish (h : s.Started) {es : List Event}
    (hrun : Machine.run step s es = some s') {number : Nat} {point : StopPc} {caller : StopCaller}
    (hstop : (s'.processes number).pc = .stop point caller)
    : ∃ fs s'',
        Machine.run step s' fs = some s''
          ∧ Machine.Meets step (OnItsOwn number) s' fs
          ∧ ((s''.processes number).pc = .stopped ∨ (s''.processes number).pc = .gone) := by
  let Stopping := fun s : BridgeProcess =>
    s.Inv ∧ s.ChildInv ∧ 5 ≤ (s.processes number).pc.stage
  have hstart : Stopping s' := by
    refine ⟨run_inv h hrun, run_childInv h hrun, ?_⟩
    rw [hstop]
    cases point <;> simp [OwnerPc.stage]
  obtain ⟨fs, s'', hfs, hmeets, -, hend⟩ := Machine.exists_run_of_progress
    (I := Stopping) (G := fun s => (s.processes number).pc.stage = 15) (P := OnItsOwn number)
    (fun s => (s.processes number).toDo)
    (by
      rintro t ⟨hinv, hchild, hstage⟩ hnot
      obtain ⟨act, table, p, hp, hlow, hlt, hact⟩ :=
        @FfmpegProcess.progress _ number t.table (hinv.processes number) hstage hnot
      have hstep : t.step (.process number act)
          = some { table, processes := Function.update t.processes number p } := by
        simp [step, hp]
      refine ⟨_, _, onItsOwn_of_unhindered hinv hchild (by omega) hact, hstep,
        ⟨step_inv hinv hstep, step_childInv hinv hchild hstep, ?_⟩, ?_⟩
      . simpa using hlow
      . simpa using hlt)
    hstart
  refine ⟨fs, s'', hfs, hmeets, ?_⟩
  have hstage : (s''.processes number).pc.stage = 15 := hend
  rcases @OwnerPc.of_stage (s''.processes number).pc (by omega) with ⟨point, caller, hpc⟩ | hpc
  . rw [hpc] at hstage
    cases point <;> exact absurd hstage (by simp [OwnerPc.stage])
  . exact hpc

theorem stop_process_can_finish_sample
    : ∃ fs s'',
        Machine.run step sampleStopping fs = some s''
          ∧ Machine.Meets step (OnItsOwn 0) sampleStopping fs
          ∧ ((s''.processes 0).pc = .stopped ∨ (s''.processes 0).pc = .gone) :=
  stop_process_can_finish sampleStart_started (Option.some_get sampleDestroy_runs).symm rfl

end BridgeProcess
end Spawning
end HikBridge
