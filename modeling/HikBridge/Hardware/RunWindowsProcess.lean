import HikBridge.Hardware.Detect
import HikBridge.Lib.Machine

/-!
This module contains `run_windows_process`: the bridge polls the pipe of a process that writes, ends and
is terminated in its own time. What it returns is all that was written to the pipe, and it reports a
success only for a process that ended by itself.
-/

namespace HikBridge

inductive CaptureHandle where
  | outputRead
  | outputWrite
  | process
  | thread
  deriving DecidableEq, Repr

inductive CaptureChild where
  | absent
  | running
  | ended (code : UInt32)
  deriving DecidableEq, Repr

-- Where `run_windows_process` stands. The number is what `PeekNamedPipe` answered.
inductive CapturePc where
  | entered
  | piped
  | peeking
  | reading (available : Nat)
  | waiting
  | late
  | reaping
  | draining
  | returned
  deriving DecidableEq, Repr

/--
`held` says that a process other than the bridge has the write end of the pipe: the child, or what the
child left behind. `written` keeps all that went into the pipe.
-/
structure Capture where
  result : CapturedProcessResult := {}
  pc : CapturePc := .entered
  handles : List CaptureHandle := []
  child : CaptureChild := .absent
  terminated : Bool := false
  held : Bool := false
  pipe : Bytes := []
  written : Bytes := []
  deriving DecidableEq, Repr

inductive CaptureEvent where
  | createPipe (created : Bool)
  | createProcess (created : Bool)
  | peek
  | read (count : Nat)
  | wait (expired : Bool)
  | terminate
  | reap
  | finish
  | write (data : Bytes)
  | release
  | exit (code : UInt32)
  deriving DecidableEq, Repr

namespace Capture

variable (s : Capture)

def take (count : Nat) (pc : CapturePc) : Capture :=
  { s with
    result := { s.result with output := s.result.output ++ s.pipe.take count }
    pipe := s.pipe.drop count
    pc }

def close (handle : CaptureHandle) : Capture := { s with handles := s.handles.erase handle }

def createPipe (created : Bool) : Capture :=
  if created then { s with handles := [.outputRead, .outputWrite], pc := .piped }
  else { s with pc := .returned }

def createProcess (created : Bool) : Capture :=
  if created then
    let s := { s with handles := s.handles ++ [CaptureHandle.process, CaptureHandle.thread] }
    { (s.close .outputWrite).close .thread with child := .running, held := true, pc := .peeking }
  else
    { (s.close .outputRead).close .outputWrite with pc := .returned }

def wait (expired : Bool) : Capture :=
  match s.child with
  | .ended _ => { s with pc := .draining }
  | _ =>
    if expired then { s with result := { s.result with timedOut := true }, pc := .late }
    else { s with pc := .peeking }

def finish (code : UInt32) : Capture :=
  { (s.close .outputRead).close .process with
    result := { s.result with exitCode := code.toInt32.toInt }
    pc := .returned }

def step (s : Capture) (event : CaptureEvent) : Option Capture :=
  match event with
  | .createPipe created => if s.pc = .entered then some (s.createPipe created) else none
  | .createProcess created => if s.pc = .piped then some (s.createProcess created) else none
  | .peek =>
    if s.pc = .peeking then
      some { s with pc := if s.pipe = [] then .waiting else .reading s.pipe.length }
    else
      none
  | .read count =>
    match s.pc with
    | .reading available =>
      if 0 < count ∧ count ≤ min 4096 available then some (s.take count .waiting) else none
    | .draining =>
      if 0 < count ∧ count ≤ min 4096 s.pipe.length then some (s.take count .draining) else none
    | _ => none
  | .wait expired => if s.pc = .waiting then some (s.wait expired) else none
  | .terminate => if s.pc = .late then some { s with terminated := true, pc := .reaping } else none
  | .reap =>
    match s.pc, s.child with
    | .reaping, .ended _ => some { s with pc := .draining }
    | _, _ => none
  | .finish =>
    -- `ReadFile` fails once the pipe is empty and nobody can write to it
    match s.pc, s.child with
    | .draining, .ended code => if s.pipe = [] ∧ !s.held then some (s.finish code) else none
    | _, _ => none
  | .write data =>
    -- a write of no bytes puts nothing into a pipe of bytes
    if s.held ∧ data ≠ [] then some { s with pipe := s.pipe ++ data, written := s.written ++ data }
    else none
  | .release => if s.held then some { s with held := false } else none
  | .exit code => if s.child = .running then some { s with child := .ended code } else none

structure Captured : Prop where
  handles : s.handles = []
  complete : s.result.output = s.written
  child : s.child ≠ .running
  unstarted : s.child = .absent → s.result = {}
  exitCode : ∀ code, s.child = .ended code → s.result.exitCode = code.toInt32.toInt
  timedOut : s.result.timedOut = s.terminated
  passed : s.result.passed → s.child = .ended 0 ∧ s.terminated = false

def openHandles : CapturePc → List CaptureHandle
  | .entered => []
  | .piped => [.outputRead, .outputWrite]
  | .returned => []
  | _ => [.outputRead, .process]

def Stage : CapturePc → Prop
  | .entered | .piped =>
    s.child = .absent ∧ s.terminated = false ∧ s.result = {} ∧ s.held = false ∧ s.pipe = []
  | .peeking | .waiting =>
    s.child ≠ .absent ∧ s.terminated = false ∧ s.result.timedOut = false
  | .reading available =>
    s.child ≠ .absent ∧ s.terminated = false ∧ s.result.timedOut = false ∧ available ≤ s.pipe.length
  | .late => s.child ≠ .absent ∧ s.terminated = false ∧ s.result.timedOut = true
  | .reaping => s.child ≠ .absent ∧ s.terminated = true ∧ s.result.timedOut = true
  | .draining => (∃ code, s.child = .ended code) ∧ s.result.timedOut = s.terminated
  | .returned => s.Captured ∧ s.held = false

structure Inv : Prop where
  balance : s.result.output ++ s.pipe = s.written
  handles : s.handles = openHandles s.pc
  stage : s.Stage s.pc

variable {s} {s' : Capture} {event : CaptureEvent}

theorem toInt_toInt32_eq_zero {code : UInt32} (h : code.toInt32.toInt = 0) : code = 0 := by
  have hbits : code.toBitVec.toInt = (0 : UInt32).toBitVec.toInt := h
  exact UInt32.toBitVec_inj.mp (BitVec.eq_of_toInt_eq hbits)

theorem Inv.take {count : Nat} {pc : CapturePc} (h : s.Inv)
    (hhandles : openHandles pc = openHandles s.pc) (hstage : (s.take count pc).Stage pc)
    : (s.take count pc).Inv where
  balance := by
    have hbalance := h.balance
    rw [← List.take_append_drop count s.pipe, ← List.append_assoc] at hbalance
    exact hbalance
  handles := by
    rw [Capture.take, hhandles]
    exact h.handles
  stage := hstage

theorem Captured.ofFailure (hstage : s.Stage .entered) (hbalance : s.result.output ++ s.pipe = s.written)
    (hhandles : s.handles = []) : s.Captured := by
  obtain ⟨hchild, hterminated, hresult, -, hpipe⟩ := hstage
  constructor
  . exact hhandles
  . rw [← hbalance, hpipe, List.append_nil]
  . simp [hchild]
  . exact fun _ => hresult
  . simp [hchild]
  . rw [hresult, hterminated]
  . intro hpassed
    rw [hresult] at hpassed
    cases hpassed

theorem Inv.createPipe {created : Bool} (h : s.Inv) (hpc : s.pc = .entered) (hstage : s.Stage .entered)
    : (s.createPipe created).Inv := by
  have hhandles : s.handles = [] := by rw [h.handles, hpc]; rfl
  unfold Capture.createPipe
  split
  . exact ⟨h.balance, rfl, hstage⟩
  . exact ⟨h.balance, hhandles, .ofFailure hstage h.balance hhandles, hstage.2.2.2.1⟩

theorem Inv.createProcess {created : Bool} (h : s.Inv) (hpc : s.pc = .piped) (hstage : s.Stage .piped)
    : (s.createProcess created).Inv := by
  have hhandles : s.handles = [.outputRead, .outputWrite] := by rw [h.handles, hpc]; rfl
  unfold Capture.createProcess
  split
  . obtain ⟨-, hterminated, hresult, -, -⟩ := hstage
    refine ⟨h.balance, ?_, by simp, hterminated, ?_⟩
    . simp [close, hhandles, openHandles]
    . simp [close, hresult]
  . refine ⟨h.balance, ?_, .ofFailure hstage h.balance ?_, hstage.2.2.2.1⟩
    . simp [close, hhandles, openHandles]
    . simp [close, hhandles]

theorem Inv.wait {expired : Bool} (h : s.Inv) (hpc : s.pc = .waiting) (hstage : s.Stage .waiting)
    : (s.wait expired).Inv := by
  obtain ⟨hchild, hterminated, htimedOut⟩ := hstage
  have hhandles : s.handles = [.outputRead, .process] := by rw [h.handles, hpc]; rfl
  unfold Capture.wait
  split
  . next code hended => exact ⟨h.balance, hhandles, ⟨code, hended⟩, by rw [htimedOut, hterminated]⟩
  . split
    . exact ⟨h.balance, hhandles, hchild, hterminated, rfl⟩
    . exact ⟨h.balance, hhandles, hchild, hterminated, htimedOut⟩

theorem Inv.finish {code : UInt32} (h : s.Inv) (hpc : s.pc = .draining) (hended : s.child = .ended code)
    (hpipe : s.pipe = []) (hheld : s.held = false) (htimedOut : s.result.timedOut = s.terminated)
    : (s.finish code).Inv := by
  have hhandles : (s.finish code).handles = [] := by
    simp [Capture.finish, close, h.handles, hpc, openHandles]
  refine ⟨h.balance, hhandles, ⟨hhandles, ?_, ?_, ?_, ?_, htimedOut, ?_⟩, hheld⟩
  . have hbalance := h.balance
    rw [hpipe, List.append_nil] at hbalance
    exact hbalance
  . simp [Capture.finish, close, hended]
  . simp [Capture.finish, close, hended]
  . intro code' hended'
    rw [show (s.finish code).child = s.child from rfl, hended] at hended'
    cases hended'
    rfl
  . intro hpassed
    simp only [CapturedProcessResult.passed, Bool.and_eq_true, Bool.not_eq_true', beq_iff_eq] at hpassed
    have hcode : code = 0 := toInt_toInt32_eq_zero hpassed.2
    refine ⟨?_, htimedOut.symm.trans hpassed.1⟩
    rw [← hcode]
    exact hended

theorem Inv.write {data : Bytes} (h : s.Inv) (hstep : s.step (.write data) = some s') : s'.Inv := by
  have hstage := h.stage
  simp only [Capture.step] at hstep
  split at hstep
  . next hheld =>
    cases hstep
    refine ⟨by simp [← h.balance], h.handles, ?_⟩
    cases hpc : s.pc <;> rw [hpc] at hstage <;> simp_all [Stage]
    omega
  . cases hstep

theorem Inv.release (h : s.Inv) (hstep : s.step .release = some s') : s'.Inv := by
  have hstage := h.stage
  simp only [Capture.step] at hstep
  split at hstep
  . cases hstep
    refine ⟨h.balance, h.handles, ?_⟩
    cases hpc : s.pc <;> rw [hpc] at hstage <;> simp_all [Stage]
  . cases hstep

theorem Inv.exit {code : UInt32} (h : s.Inv) (hstep : s.step (.exit code) = some s') : s'.Inv := by
  have hstage := h.stage
  simp only [Capture.step] at hstep
  split at hstep
  . cases hstep
    refine ⟨h.balance, h.handles, ?_⟩
    cases hpc : s.pc <;> rw [hpc] at hstage <;> simp_all [Stage]
    exact absurd ‹_› hstage.1.child
  . cases hstep

theorem Inv.peek (h : s.Inv) (hstep : s.step .peek = some s') : s'.Inv := by
  have hstage := h.stage
  simp only [Capture.step] at hstep
  split at hstep <;> cases hstep
  next hpc =>
    rw [hpc] at hstage
    have hhandles : s.handles = [.outputRead, .process] := by rw [h.handles, hpc]; rfl
    by_cases hempty : s.pipe = []
    . simp only [if_pos hempty]
      exact ⟨h.balance, hhandles, hstage⟩
    . simp only [if_neg hempty]
      exact ⟨h.balance, hhandles, hstage.1, hstage.2.1, hstage.2.2, le_rfl⟩

theorem Inv.read {count : Nat} (h : s.Inv) (hstep : s.step (.read count) = some s') : s'.Inv := by
  have hstage := h.stage
  simp only [Capture.step] at hstep
  split at hstep
  . next hpc =>
    rw [hpc] at hstage
    split at hstep <;> cases hstep
    apply h.take
    . rw [hpc]
      rfl
    . exact ⟨hstage.1, hstage.2.1, hstage.2.2.1⟩
  . next hpc =>
    rw [hpc] at hstage
    split at hstep <;> cases hstep
    apply h.take
    . rw [hpc]
    . exact hstage
  . cases hstep

theorem Inv.terminate (h : s.Inv) (hstep : s.step .terminate = some s') : s'.Inv := by
  have hstage := h.stage
  simp only [Capture.step] at hstep
  split at hstep <;> cases hstep
  next hpc =>
    rw [hpc] at hstage
    exact ⟨h.balance, by rw [h.handles, hpc]; rfl, hstage.1, rfl, hstage.2.2⟩

theorem Inv.reap (h : s.Inv) (hstep : s.step .reap = some s') : s'.Inv := by
  have hstage := h.stage
  simp only [Capture.step] at hstep
  split at hstep
  . next code hpc hended =>
    cases hstep
    rw [hpc] at hstage
    refine ⟨h.balance, by rw [h.handles, hpc]; rfl, ⟨code, hended⟩, ?_⟩
    rw [hstage.2.1, hstage.2.2]
  . cases hstep

theorem Inv.step (h : s.Inv) (hstep : s.step event = some s') : s'.Inv := by
  have hstage := h.stage
  cases event with
  | write data => exact h.write hstep
  | release => exact h.release hstep
  | exit code => exact h.exit hstep
  | createPipe created =>
    simp only [Capture.step] at hstep
    split at hstep <;> cases hstep
    next hpc =>
      rw [hpc] at hstage
      exact h.createPipe hpc hstage
  | createProcess created =>
    simp only [Capture.step] at hstep
    split at hstep <;> cases hstep
    next hpc =>
      rw [hpc] at hstage
      exact h.createProcess hpc hstage
  | peek => exact h.peek hstep
  | read count => exact h.read hstep
  | wait expired =>
    simp only [Capture.step] at hstep
    split at hstep <;> cases hstep
    next hpc =>
      rw [hpc] at hstage
      exact h.wait hpc hstage
  | terminate => exact h.terminate hstep
  | reap => exact h.reap hstep
  | finish =>
    simp only [Capture.step] at hstep
    split at hstep
    . next code hpc hended =>
      rw [hpc] at hstage
      split at hstep <;> cases hstep
      next hover =>
        exact h.finish hpc hended hover.1 (by simpa using hover.2) hstage.2
    . cases hstep

theorem inv_start : Inv {} := ⟨rfl, rfl, rfl, rfl, rfl, rfl, rfl⟩

theorem inv_of_run {events : List CaptureEvent} (hrun : Machine.run Capture.step {} events = some s)
    : s.Inv :=
  Machine.run_invariant (fun _ _ _ h hstep => h.step hstep) inv_start hrun

/--
Whatever the child writes, whenever it ends and whether or not the deadline passes: the handles are
closed, the output is all that was written to the pipe, the exit code is the one with which the child
ended, and only a child that was never terminated counts as passed.
-/
theorem captured_of_run {events : List CaptureEvent}
    (hrun : Machine.run Capture.step {} events = some s) (hreturned : s.pc = .returned) : s.Captured := by
  have hstage := (inv_of_run hrun).stage
  rw [hreturned] at hstage
  exact hstage.1

-- The child writes past the deadline and has left its output to another process when it is terminated.
def lateEvents : List CaptureEvent :=
  [.createPipe true, .createProcess true, .peek, .write [72, 105], .wait false, .peek, .read 1,
    .wait true, .write [33], .terminate, .exit 1, .reap, .read 2, .write [10], .release, .read 1,
    .finish]

theorem captured_of_run_sample
    : ∃ s, Machine.run Capture.step {} lateEvents = some s
        ∧ s.result = ⟨1, true, [72, 105, 33, 10]⟩
        ∧ s.Captured :=
  ⟨_, rfl, rfl, @captured_of_run _ lateEvents rfl rfl⟩

end Capture
end HikBridge
