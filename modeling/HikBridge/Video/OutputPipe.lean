import HikBridge.Basic
import HikBridge.Lib.Machine

/-!
This module contains the Windows path of `FfmpegProcess::read_output_timeout` with its two callers,
one system call at a time, beside an FFmpeg process that writes to its stdout pipe and exits. The
steps of the two interleave in any way.
-/

namespace HikBridge

/--
Who calls `read_output_timeout`: `read_until_ready` before the response starts, `read` after it.
-/
inductive OutputCaller where
  | readUntilReady
  | read
  deriving DecidableEq, Repr

def OutputCaller.bufferSize : OutputCaller → Nat
  | readUntilReady => 32768
  | read => 65536

inductive ReaderPc where
  | startup
  | loop
  | read
  | readChecks
  | deadline (caller : OutputCaller)
  | checks (caller : OutputCaller)
  | peek (caller : OutputCaller)
  | readFile (caller : OutputCaller) (available : Nat)
  | wait (caller : OutputCaller)
  | sleep (caller : OutputCaller)
  | sendChunk
  | terminated
  | failed
  deriving DecidableEq, Repr

/--
One FFmpeg process, the pipe of its output and the handler that reads it. `written` and `returned`
keep what FFmpeg wrote and what the calls returned so far, `ended` whether a call returned 0.
-/
structure OutputPipe where
  written : Bytes := []
  exited : Bool := false
  pipe : Bytes := []
  running : Bool := true
  returned : Bytes := []
  ended : Bool := false
  pc : ReaderPc := .startup
  deriving DecidableEq, Repr

namespace OutputPipe

/--
A step of the handler with what the system answered: the bytes that `PeekNamedPipe` reported, 0 also
where it failed, and the count that `ReadFile` delivered, `none` where it failed.
-/
inductive ReaderAct where
  | call
  | ready
  | throws
  | isRunning
  | clock (late : Bool)
  | peek (available : Nat)
  | readFile (count : Option Nat)
  | waitForProcess
  | sleep
  | sent
  deriving DecidableEq, Repr

inductive Event where
  | write (data : Bytes)
  | exit
  | stop
  | reader (act : ReaderAct)
  deriving DecidableEq, Repr

/--
`read_output_timeout` returns the size of `data`. No data is the end of the stream:
`read_until_ready` leaves its loop and throws, `handle_video` sends the terminating chunk.
-/
def answer (s : OutputPipe) (caller : OutputCaller) (data : Bytes) : OutputPipe :=
  match caller, data with
  | .readUntilReady, [] => { s with ended := true, pc := .failed }
  | .read, [] => { s with ended := true, pc := .terminated }
  | .readUntilReady, data => { s with returned := s.returned ++ data, pc := .startup }
  | .read, data => { s with returned := s.returned ++ data, pc := .sendChunk }

def timeout (s : OutputPipe) (caller : OutputCaller) : OutputPipe :=
  match caller with
  | .readUntilReady => { s with pc := .startup }
  | .read => { s with pc := .read }

def readerStep (s : OutputPipe) (act : ReaderAct) : Option OutputPipe :=
  match s.pc, act with
  -- `read_until_ready`, which also gives up at its deadline or for too much output
  | .startup, .call => some { s with pc := .deadline .readUntilReady }
  | .startup, .ready => some { s with pc := .loop }
  | .startup, .throws => some { s with pc := .failed }
  -- `while (g_running.load())` of `handle_video`
  | .loop, .isRunning => some { s with pc := if s.running then .read else .terminated }
  -- `while (g_running.load())` of `read`, which returns 0 after it
  | .read, .isRunning => some { s with pc := if s.running then .readChecks else .terminated }
  -- `check_client_` and the stall deadline
  | .readChecks, .throws => some { s with pc := .failed }
  | .readChecks, .call => some { s with pc := .deadline .read }
  -- `read_output_timeout`
  | .deadline caller, .clock late =>
    some (if late then s.timeout caller else { s with pc := .checks caller })
  | .checks _, .throws => some { s with pc := .failed }
  | .checks caller, .isRunning =>
    some { s with pc := if s.running then .peek caller else .failed }
  | .peek caller, .peek available =>
    some { s with pc := if 0 < available then .readFile caller available else .wait caller }
  | .readFile caller available, .readFile (some count) =>
    if count ≤ min caller.bufferSize available ∧ count ≤ s.pipe.length then
      some ({ s with pipe := s.pipe.drop count }.answer caller (s.pipe.take count))
    else
      none
  | .readFile caller _, .readFile none => some (s.answer caller [])
  | .wait caller, .waitForProcess =>
    some (if s.exited then s.answer caller [] else { s with pc := .sleep caller })
  | .sleep caller, .sleep => some { s with pc := .deadline caller }
  | .sendChunk, .sent => some { s with pc := .loop }
  | .sendChunk, .throws => some { s with pc := .failed }
  | _, _ => none

def step (s : OutputPipe) (event : Event) : Option OutputPipe :=
  match event with
  | .write data =>
    if s.exited then none else some { s with written := s.written ++ data, pipe := s.pipe ++ data }
  | .exit => if s.exited then none else some { s with exited := true }
  | .stop => some { s with running := false }
  | .reader act => s.readerStep act

/--
What the system does for the reader: `PeekNamedPipe` reports the bytes in the pipe and `ReadFile`
delivers some of them when there are any.
-/
def Faithful (s : OutputPipe) (event : Event) : Prop :=
  match event with
  | .reader (.peek available) => available = s.pipe.length
  | .reader (.readFile count) => s.pipe ≠ [] → ∃ n, count = some n ∧ 0 < n
  | _ => True

/--
FFmpeg does not exit between an empty peek and the exit check of the same round after it wrote there.
-/
def NoWriteBeforeExit (s : OutputPipe) (event : Event) : Prop :=
  event = .exit → ∀ caller, s.pc = .wait caller → s.pipe = []

structure Inv (s : OutputPipe) : Prop where
  written_eq : s.written = s.returned ++ s.pipe
  peeked : ∀ caller available, s.pc = .readFile caller available → s.pipe ≠ []
  waiting : ∀ caller, s.pc = .wait caller → s.exited = true → s.pipe = []
  ended : s.ended = true → s.exited = true ∧ s.pipe = []
  terminated : s.pc = .terminated → s.ended = true ∨ s.running = false

variable {s s' : OutputPipe} {event : Event} {act : ReaderAct} {caller : OutputCaller}
  {events : List Event}

theorem inv_create : Inv {} := by
  constructor
  all_goals simp

theorem Inv.goto (h : Inv s) {pc : ReaderPc} (hreadFile : ∀ caller n, pc ≠ .readFile caller n)
    (hwait : ∀ caller, pc ≠ .wait caller) (hterminated : pc ≠ .terminated)
    : Inv { s with pc } where
  written_eq := h.written_eq
  peeked caller n hpc := absurd hpc (hreadFile caller n)
  waiting caller hpc := absurd hpc (hwait caller)
  ended := h.ended
  terminated hpc := absurd hpc hterminated

theorem Inv.timeout (h : Inv s) : Inv (s.timeout caller) := by
  cases caller
  all_goals
    apply h.goto
    all_goals simp

theorem Inv.answer_nil (h : Inv s) (hexited : s.exited = true) (hpipe : s.pipe = [])
    : Inv (s.answer caller []) := by
  cases caller
  all_goals
    constructor
    . exact h.written_eq
    . simp [answer]
    . simp [answer]
    . exact fun _ => ⟨hexited, hpipe⟩
    . simp [answer]

theorem Inv.answer_data (h : Inv s) {count : Nat} (hpos : 0 < count) (hle : count ≤ s.pipe.length)
    : Inv ({ s with pipe := s.pipe.drop count }.answer caller (s.pipe.take count)) := by
  have hwritten : s.written = s.returned ++ s.pipe.take count ++ s.pipe.drop count := by
    rw [List.append_assoc, List.take_append_drop]
    exact h.written_eq
  have hended : s.ended = true → s.exited = true ∧ s.pipe.drop count = [] := by
    intro hended
    rw [(h.ended hended).2]
    exact ⟨(h.ended hended).1, List.drop_nil⟩
  cases htake : s.pipe.take count with
  | nil =>
    rw [List.take_eq_nil_iff] at htake
    rcases htake with hzero | hnil
    . omega
    . rw [hnil] at hle
      simp at hle
      omega
  | cons byte rest =>
    rw [htake] at hwritten
    cases caller
    all_goals
      constructor
      . exact hwritten
      . simp [answer]
      . simp [answer]
      . exact hended
      . simp [answer]

theorem Inv.isRunning (h : Inv s) {pc : ReaderPc} (hreadFile : ∀ caller n, pc ≠ .readFile caller n)
    (hwait : ∀ caller, pc ≠ .wait caller) (hterminated : pc ≠ .terminated)
    : Inv { s with pc := if s.running then pc else .terminated } := by
  by_cases hrunning : s.running = true
  . rw [if_pos hrunning]
    exact h.goto hreadFile hwait hterminated
  . rw [if_neg hrunning]
    exact {
      written_eq := h.written_eq
      peeked := by simp
      waiting := by simp
      ended := h.ended
      terminated := fun _ => .inr (by simpa using hrunning) }

theorem Inv.peek (h : Inv s)
    : Inv { s with
        pc := if 0 < s.pipe.length then .readFile caller s.pipe.length else .wait caller } := by
  by_cases hpos : 0 < s.pipe.length
  . rw [if_pos hpos]
    exact {
      written_eq := h.written_eq
      peeked := fun _ _ _ => List.ne_nil_of_length_pos hpos
      waiting := by simp
      ended := h.ended
      terminated := by simp }
  . rw [if_neg hpos]
    exact {
      written_eq := h.written_eq
      peeked := by simp
      waiting := fun _ _ _ => List.length_eq_zero_iff.mp (Nat.eq_zero_of_not_pos hpos)
      ended := h.ended
      terminated := by simp }

theorem inv_readerStep (h : Inv s) (hfaithful : Faithful s (.reader act))
    (hstep : s.readerStep act = some s') : Inv s' := by
  unfold readerStep at hstep
  split at hstep
  case h_4 | h_5 =>
    cases hstep
    apply h.isRunning
    all_goals simp
  case h_8 _ _ caller late _ =>
    cases hstep
    cases late with
    | true => exact h.timeout
    | false =>
      apply h.goto
      all_goals simp
  case h_10 =>
    cases hstep
    apply h.goto
    all_goals
      split
      all_goals simp
  case h_11 =>
    cases hstep
    rw [show _ = s.pipe.length from hfaithful]
    exact h.peek
  case h_12 _ _ caller available count hpc =>
    split at hstep
    . next hle =>
      cases hstep
      rcases hfaithful (h.peeked caller available hpc) with ⟨n, hcount, hpos⟩
      cases hcount
      exact h.answer_data hpos hle.2
    . contradiction
  case h_13 _ _ caller available hpc =>
    -- `ReadFile` has the bytes that the peek reported.
    rcases hfaithful (h.peeked caller available hpc) with ⟨_, hcount, -⟩
    contradiction
  case h_14 _ _ caller hpc =>
    cases hstep
    split
    . next hexited => exact h.answer_nil hexited (h.waiting caller hpc hexited)
    . apply h.goto
      all_goals simp
  case h_18 => contradiction
  all_goals
    cases hstep
    apply h.goto
    all_goals simp

theorem inv_step (h : Inv s) (hfaithful : Faithful s event) (hwrite : NoWriteBeforeExit s event)
    (hstep : step s event = some s') : Inv s' := by
  cases event with
  | write data =>
    simp only [step] at hstep
    split at hstep
    . contradiction
    . next hexited =>
      cases hstep
      exact {
        written_eq := by simp [h.written_eq]
        peeked := fun caller n hpc => by simp [h.peeked caller n hpc]
        waiting := fun _ _ hexit => absurd hexit hexited
        ended := fun hended => absurd (h.ended hended).1 hexited
        terminated := h.terminated }
  | exit =>
    simp only [step] at hstep
    split at hstep
    . contradiction
    . next hexited =>
      cases hstep
      exact {
        written_eq := h.written_eq
        peeked := h.peeked
        waiting := fun caller hpc _ => hwrite rfl caller hpc
        ended := fun hended => absurd (h.ended hended).1 hexited
        terminated := h.terminated }
  | stop =>
    cases hstep
    exact {
      written_eq := h.written_eq
      peeked := h.peeked
      waiting := h.waiting
      ended := h.ended
      terminated := fun _ => .inr rfl }
  | reader act => exact inv_readerStep h hfaithful hstep

/--
An exit that breaks the condition loses what was written: the reader has one step to take, and with
it the call returns 0.
-/
theorem lost_of_write_before_exit (hstep : step s .exit = some s')
    (hwrite : ¬NoWriteBeforeExit s .exit)
    : ∃ s'', step s' (.reader .waitForProcess) = some s''
        ∧ (∀ act t, step s' (.reader act) = some t → t = s'')
        ∧ s''.ended = true
        ∧ s''.pipe ≠ [] := by
  simp only [NoWriteBeforeExit, forall_const, not_forall] at hwrite
  rcases hwrite with ⟨caller, hpc, hpipe⟩
  simp only [step] at hstep
  split at hstep
  . contradiction
  . cases hstep
    refine ⟨{ s with exited := true }.answer caller [], ?_, ?_, ?_, ?_⟩
    . simp [step, readerStep, hpc]
    . intro act t ht
      cases act
      all_goals simp_all [step, readerStep]
    . cases caller
      all_goals rfl
    . cases caller
      all_goals exact hpipe

/--
In every run in which FFmpeg does not write between an empty peek and the exit check that finds it
exited, 0 is returned only after everything that FFmpeg wrote, and the terminating chunk is sent only
after all of it unless the server is stopped.
-/
theorem endOfOutput_lossless (hrun : Machine.run step {} events = some s)
    (hfaithful : Machine.Meets step Faithful {} events)
    (hwrite : Machine.Meets step NoWriteBeforeExit {} events)
    : (s.ended = true → s.exited = true ∧ s.pipe = [] ∧ s.returned = s.written)
        ∧ (s.pc = .terminated → s.running = true → s.pipe = [] ∧ s.returned = s.written) := by
  have hinv : Inv s := Machine.run_invariant_of_meets
    (fun s event s' h hmeets hstep => inv_step h hmeets.1 hmeets.2 hstep) inv_create
    (hfaithful.and hwrite) hrun
  have hlossless : s.ended = true → s.exited = true ∧ s.pipe = [] ∧ s.returned = s.written := by
    intro hended
    rcases hinv.ended hended with ⟨hexited, hpipe⟩
    have hwritten := hinv.written_eq
    rw [hpipe, List.append_nil] at hwritten
    exact ⟨hexited, hpipe, hwritten.symm⟩
  refine ⟨hlossless, ?_⟩
  intro hpc hrunning
  rcases hinv.terminated hpc with hended | hstopped
  . exact (hlossless hended).2
  . rw [hrunning] at hstopped
    contradiction

section Examples

instance (s : OutputPipe) (event : Event) : Decidable (Faithful s event) :=
  match event with
  | .write _ | .exit | .stop => inferInstanceAs (Decidable True)
  | .reader act =>
    match act with
    | .peek available => inferInstanceAs (Decidable (available = s.pipe.length))
    | .readFile none => decidable_of_iff (s.pipe = []) (by simp [Faithful])
    | .readFile (some n) =>
      decidable_of_iff (s.pipe = [] ∨ 0 < n) (by simp [Faithful, or_iff_not_imp_left])
    | .call | .ready | .throws | .isRunning | .clock _ | .waitForProcess | .sleep | .sent =>
      inferInstanceAs (Decidable True)

instance (s : OutputPipe) (event : Event) : Decidable (NoWriteBeforeExit s event) :=
  decidable_of_iff
    (event = .exit → (s.pc = .wait .readUntilReady → s.pipe = []) ∧ (s.pc = .wait .read → s.pipe = []))
    ⟨fun h hexit caller => by cases caller with | readUntilReady => exact (h hexit).1 | read => exact (h hexit).2,
      fun h hexit => ⟨h hexit .readUntilReady, h hexit .read⟩⟩

/--
The reader peeks into the empty pipe. Then FFmpeg writes its last bytes and exits, and the exit check
follows.
-/
def lastWrite : List Event :=
  [.reader .ready, .reader .isRunning, .reader .isRunning, .reader .call, .reader (.clock false),
    .reader .isRunning, .reader (.peek 0), .write [109, 111, 111, 102], .exit,
    .reader .waitForProcess]

theorem last_write_lost
    : ∃ s, Machine.run step {} lastWrite = some s
        ∧ Machine.Meets step Faithful {} lastWrite
        ∧ s.ended = true
        ∧ s.pc = .terminated
        ∧ s.running = true
        ∧ s.pipe = [109, 111, 111, 102]
        ∧ s.returned = [] :=
  ⟨_, rfl, by decide, rfl, rfl, rfl, rfl, rfl⟩

def timelyWrite : List Event :=
  [.write [109, 111, 111, 102], .reader .ready, .reader .isRunning, .reader .isRunning,
    .reader .call, .reader (.clock false), .reader .isRunning, .exit, .reader (.peek 4),
    .reader (.readFile (some 4)), .reader .sent, .reader .isRunning, .reader .isRunning,
    .reader .call, .reader (.clock false), .reader .isRunning, .reader (.peek 0),
    .reader .waitForProcess]

theorem endOfOutput_lossless_timelyWrite
    : ∃ s, Machine.run step {} timelyWrite = some s
        ∧ s.pc = .terminated
        ∧ s.pipe = []
        ∧ s.returned = s.written := by
  let s : OutputPipe := {
    written := [109, 111, 111, 102], exited := true, returned := [109, 111, 111, 102]
    ended := true, pc := .terminated }
  have hrun : Machine.run step {} timelyWrite = some s := by decide
  have hfaithful : Machine.Meets step Faithful {} timelyWrite := by decide
  have hwrite : Machine.Meets step NoWriteBeforeExit {} timelyWrite := by decide
  exact ⟨s, hrun, rfl, (endOfOutput_lossless hrun hfaithful hwrite).2 rfl rfl⟩

end Examples
end OutputPipe
end HikBridge
