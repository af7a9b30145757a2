import HikBridge.FfmpegProcess.Moves

/-!
This module contains the invariant of one `FfmpegProcess`: which of its descriptors, threads and
children can be there at each point of its owner.
-/

namespace HikBridge
namespace Spawning

open Descriptors

def High (fd : Option Nat) : Prop := ∃ n, fd = some n ∧ 3 ≤ n

def EndsAt (pc : OwnerPc) (ends : Stdio → End → Option Nat) : Prop :=
  match pc with
  | .pipe2 stdio =>
    (∀ a b, a.number < stdio.number → High (ends a b))
      ∧ ∀ a b, stdio.number ≤ a.number → ends a b = none
  | .fcntl stdio side =>
    (∀ a b, a.number < stdio.number → High (ends a b))
      ∧ (∀ b, ends stdio b ≠ none)
      ∧ (side = .write → High (ends stdio .read))
      ∧ ∀ a b, stdio.number < a.number → ends a b = none
  | .close stdio side raised =>
    (∀ a b, a.number < stdio.number → High (ends a b))
      ∧ (∀ b, ends stdio b ≠ none)
      ∧ (side = .write → High (ends stdio .read))
      ∧ (∀ a b, stdio.number < a.number → ends a b = none)
      ∧ 3 ≤ raised
      ∧ ∃ low, ends stdio side = some low ∧ low < 3
  | .configure | .posixSpawn => ∀ a b, High (ends a b)
  | .pipeEnds left thrown =>
    ∀ a b, ends a b ≠ none → (a, b) ∈ left ∧ (thrown = false → b = a.childEnd)
  | _ => ∀ a b, ends a b = none

theorem Child.isUnreaped_signal (hard : Bool) (child : Child)
    : (child.signal hard).isUnreaped = child.isUnreaped := by
  cases child <;> rfl

theorem Child.killed_signal {child : Child} {childTable : Table File} {killed : Bool}
    (h : child.signal true = .running childTable killed) : killed = true := by
  cases child with
  | running childTable killed =>
    cases h
    exact Bool.or_true killed
  | none | zombie | reaped => cases h

theorem Child.isUnreaped_reap {child : Child}
    (h : ∀ childTable killed, child ≠ .running childTable killed) : child.reap.isUnreaped = false := by
  cases child with
  | running childTable killed => exact absurd rfl (h childTable killed)
  | none | zombie | reaped => rfl

namespace FfmpegProcess

structure Bare (p : FfmpegProcess) : Prop where
  hasPid : p.hasPid = false
  inputFd : p.inputFd = none
  outputFd : p.outputFd = none
  errorFd : p.errorFd = none
  stopRequested : p.stopRequested = false
  pump : p.pump = .absent
  errorPump : p.errorPump = .absent
  child : p.child = .none

structure At (p : FfmpegProcess) (stage : Nat) : Prop where
  bare : stage = 0 → p.Bare
  fresh : p.stopRequested = false → stage ≤ 5
  used : 1 ≤ stage → stage ≤ 4
    → p.hasPid = true ∧ p.outputFd ≠ none ∧ p.errorFd ≠ none ∧ p.stopRequested = false
  input : 1 ≤ stage → stage ≤ 4 → p.pump = .absent → p.inputFd ≠ none
  pump : p.pump.isActive = true → p.inputFd ≠ none ∧ 4 ≤ stage ∧ stage ≤ 10
  errorPump : p.errorPump.isActive = true → p.errorFd ≠ none ∧ 3 ≤ stage ∧ stage ≤ 12
  pid : p.hasPid = p.child.isUnreaped
  waits : 6 ≤ stage → (p.hasPid = true ↔ stage ≤ 9)
  killed : stage = 9 → ∀ childTable killed, p.child = .running childTable killed → killed = true
  closedInput : 12 ≤ stage → p.inputFd = none
  closedOutput : 14 ≤ stage → p.outputFd = none
  closedError : 15 ≤ stage → p.errorFd = none
  again : stage = 5 → p.stopRequested = true
    → p.inputFd = none ∧ p.outputFd = none ∧ p.errorFd = none ∧ p.hasPid = false

structure Inv (p : FfmpegProcess) : Prop extends p.At p.pc.stage where
  ends : EndsAt p.pc p.ends

theorem Bare.at {p : FfmpegProcess} (h : p.Bare) {stage : Nat} (hstage : stage = 0 ∨ stage = 5)
    : p.At stage where
  bare _ := h
  fresh _ := by omega
  used _ _ := by omega
  input _ _ := by omega
  pump hpump := by simp [h.pump, PumpPc.isActive] at hpump
  errorPump hpump := by simp [h.errorPump, ErrorPumpPc.isActive] at hpump
  pid := by
    rw [h.hasPid, h.child]
    rfl
  waits _ := by omega
  killed _ := by omega
  closedInput _ := by omega
  closedOutput _ := by omega
  closedError _ := by omega
  again _ hstop := by simp [h.stopRequested] at hstop

theorem inv_start : ({} : FfmpegProcess).Inv where
  toAt := Bare.at ⟨rfl, rfl, rfl, rfl, rfl, rfl, rfl, rfl⟩ (.inl rfl)
  ends _ _ := rfl

variable {p p' : FfmpegProcess} {number : Nat} {table table' : Table File} {act : ProcessAct}

@[simp]
theorem stage_afterRaise (stdio : Stdio) (side : End) : (afterRaise stdio side).stage = 0 := by
  cases stdio <;> cases side <;> rfl

@[simp]
theorem stage_afterStop (caller : StopCaller) : (afterStop caller).stage = 15 := by
  cases caller <;> rfl

theorem endsAt_afterStop {caller : StopCaller} {ends : Stdio → End → Option Nat}
    : EndsAt (afterStop caller) ends ↔ ∀ a b, ends a b = none := by
  cases caller <;> rfl

theorem Inv.stage_pos (h : p.Inv) (hchild : p.child ≠ .none) : 1 ≤ p.pc.stage :=
  Nat.pos_of_ne_zero fun hs => hchild (h.bare hs).child

theorem Throws.stage {pc : OwnerPc} (h : Throws pc act) : pc.stage = 0 := by
  cases h <;> rfl

theorem Stops.stage {pc : OwnerPc} {caller : StopCaller} (h : Stops pc act caller)
    : 2 ≤ pc.stage ∧ (pc.stage ≤ 4 ∨ pc.stage = 15) := by
  cases h <;> decide

theorem Reaps.stage {pc : OwnerPc} {caller : StopCaller} (h : Reaps pc act caller)
    : pc.stage = 7 ∨ pc.stage = 9 := by
  cases h <;> simp [OwnerPc.stage]

theorem Inv.ends_eq_none (h : p.Inv) (hstage : 2 ≤ p.pc.stage) (a : Stdio) (b : End)
    : p.ends a b = none := by
  have hends := h.ends
  cases hpc : p.pc with
  | pipeEnds left thrown =>
    rw [hpc] at hstage
    cases thrown <;> exact absurd hstage (by simp [OwnerPc.stage])
  | unborn | pipe2 | fcntl | close | configure | posixSpawn =>
    rw [hpc] at hstage
    exact absurd hstage (by simp [OwnerPc.stage])
  | startErrorPump | log | constructed | stop | stopped | gone =>
    rw [hpc] at hends
    exact hends a b

theorem mem_pipeEnds (stdio : Stdio) (side : End) : (stdio, side) ∈ pipeEnds := by
  cases stdio <;> cases side <;> decide

theorem endsAt_afterRaise {ends : Stdio → End → Option Nat} {stdio : Stdio} {side : End}
    (hbefore : ∀ a b, a.number < stdio.number → High (ends a b)) (hsome : ∀ b, ends stdio b ≠ none)
    (hread : side = .write → High (ends stdio .read)) (hside : High (ends stdio side))
    (hafter : ∀ a b, stdio.number < a.number → ends a b = none)
    : EndsAt (afterRaise stdio side) ends := by
  cases side with
  | read => exact ⟨hbefore, hsome, fun _ => hside, hafter⟩
  | write =>
    have hall : ∀ a b, a.number < stdio.number + 1 → High (ends a b) := by
      intro a b ha
      by_cases heq : a = stdio
      . subst heq
        cases b with
        | read => exact hread rfl
        | write => exact hside
      . refine hbefore a b ?_
        cases a <;> cases stdio <;> simp_all [Stdio.number]
    cases stdio with
    | input =>
      refine ⟨fun a b ha => hall a b ha, fun a b ha => hafter a b ha⟩
    | output =>
      refine ⟨fun a b ha => hall a b ha, fun a b ha => hafter a b ha⟩
    | error => exact fun a b => hall a b (by cases a <;> decide)

theorem Inv.bare_pc (h : p.Inv) (hstage : p.pc.stage = 0) {pc : OwnerPc}
    {ends : Stdio → End → Option Nat} (hpc : pc.stage = 0 ∨ pc.stage = 5) (hends : EndsAt pc ends)
    : ({ p with pc, ends } : FfmpegProcess).Inv := by
  obtain ⟨hpid, hinput, houtput, herror, hstop, hpump, herrorPump, hchild⟩ := h.bare hstage
  have hbare : ({ p with pc, ends } : FfmpegProcess).Bare :=
    ⟨hpid, hinput, houtput, herror, hstop, hpump, herrorPump, hchild⟩
  exact ⟨hbare.at hpc, hends⟩

theorem endsAt_pipe2 {stdio : Stdio} {read write : Nat} (h : EndsAt (.pipe2 stdio) p.ends)
    : EndsAt (.fcntl stdio .read)
        ((p.setEnd stdio .read (some read)).setEnd stdio .write (some write)).ends := by
  obtain ⟨hbefore, hafter⟩ := h
  refine ⟨?_, ?_, nofun, ?_⟩
  . intro a b ha
    have hne : a ≠ stdio := fun heq => absurd ha (heq ▸ Nat.lt_irrefl _)
    simp only [setEnd, hne, false_and, if_false]
    exact hbefore a b ha
  . intro b
    cases b <;> simp [setEnd]
  . intro a b ha
    have hne : a ≠ stdio := fun heq => absurd ha (heq ▸ Nat.lt_irrefl _)
    simp only [setEnd, hne, false_and, if_false]
    exact hafter a b (Nat.le_of_lt ha)

theorem endsAt_closeLow {stdio : Stdio} {side : End} {raised : Nat}
    (h : EndsAt (.close stdio side raised) p.ends)
    : EndsAt (afterRaise stdio side) (p.setEnd stdio side (some raised)).ends := by
  obtain ⟨hbefore, hsome, hread, hafter, hraised, -⟩ := h
  have hother : ∀ a b, a ≠ stdio → (p.setEnd stdio side (some raised)).ends a b = p.ends a b := by
    intro a b hne
    simp [setEnd, hne]
  have hself : (p.setEnd stdio side (some raised)).ends stdio side = some raised := by
    simp [setEnd]
  refine endsAt_afterRaise ?_ ?_ ?_ ⟨raised, hself, hraised⟩ ?_
  . intro a b ha
    rw [hother a b fun heq => absurd ha (heq ▸ Nat.lt_irrefl _)]
    exact hbefore a b ha
  . intro b
    by_cases hb : b = side
    . rw [hb, hself]
      exact nofun
    . simpa [setEnd, hb] using hsome b
  . intro hside
    subst hside
    simpa [setEnd] using hread rfl
  . intro a b ha
    rw [hother a b fun heq => absurd ha (heq ▸ Nat.lt_irrefl _)]
    exact hafter a b ha

theorem endsAt_closeEnd {stdio : Stdio} {side : End} {left : List (Stdio × End)} {thrown : Bool}
    (h : EndsAt (.pipeEnds ((stdio, side) :: left) thrown) p.ends)
    : EndsAt (.pipeEnds left thrown) (p.setEnd stdio side none).ends := by
  intro a b hne
  by_cases heq : a = stdio ∧ b = side
  . simp [setEnd, heq] at hne
  . have hold : p.ends a b ≠ none := by simpa [setEnd, heq] using hne
    obtain ⟨hmem, hchild⟩ := h a b hold
    refine ⟨?_, hchild⟩
    cases hmem with
    | head => exact absurd ⟨rfl, rfl⟩ heq
    | tail _ hmem => exact hmem

theorem At.owner {stage : Nat} (h : p.At stage) (pc : OwnerPc) (ends : Stdio → End → Option Nat)
    : ({ p with pc, ends } : FfmpegProcess).At stage := by
  obtain ⟨hbare, hfresh, hused, hinput, hpump, herrorPump, hpid, hwaits, hkilled, hclosedInput,
    hclosedOutput, hclosedError, hagain⟩ := h
  refine ⟨fun hstage => ?_, hfresh, hused, hinput, hpump, herrorPump, hpid, hwaits, hkilled,
    hclosedInput, hclosedOutput, hclosedError, hagain⟩
  obtain ⟨hpid, hinput, houtput, herror, hstop, hpump, herrorPump, hchild⟩ := hbare hstage
  exact ⟨hpid, hinput, houtput, herror, hstop, hpump, herrorPump, hchild⟩

theorem Inv.at (h : p.Inv) {stage : Nat} (hstage : p.pc.stage = stage) : p.At stage := hstage ▸ h.toAt

theorem At.inv {stage : Nat} (h : p.At stage) {pc : OwnerPc} (hpc : pc.stage = stage)
    (hends : EndsAt pc p.ends) : ({ p with pc } : FfmpegProcess).Inv :=
  ⟨by
    rw [show ({ p with pc } : FfmpegProcess).pc.stage = stage from hpc]
    exact h.owner pc p.ends, hends⟩

section Stages

attribute [local grind =] PumpPc.isActive ErrorPumpPc.isActive Child.isUnreaped

theorem At.spawned (h : p.At 0) (hends : ∀ a b, p.ends a b ≠ none) (childTable : Table File)
    : (p.spawned childTable).At 1 := by
  obtain ⟨-, -, -, -, hstop, hpump, herrorPump, -⟩ := h.bare rfl
  have hinput := hends .input .write
  have houtput := hends .output .read
  have herror := hends .error .read
  constructor <;> grind -ring -linarith -order [FfmpegProcess.spawned]

theorem At.handedOver (h : p.At 1) : p.At 2 := by
  cases h
  constructor <;> grind -ring -linarith -order

theorem At.startErrorPump (h : p.At 2) : ({ p with errorPump := .loop } : FfmpegProcess).At 3 := by
  cases h
  constructor <;> grind -ring -linarith -order

theorem At.logged (h : p.At 3) : p.At 4 := by
  cases h
  constructor <;> grind -ring -linarith -order

theorem At.startPump (h : p.At 4) (hpump : p.pump = .absent)
    : ({ p with pump := .loop } : FfmpegProcess).At 4 := by
  cases h
  constructor <;> grind -ring -linarith -order

theorem At.stops {stage : Nat} (h : p.At stage) (hstage : 2 ≤ stage ∧ (stage ≤ 4 ∨ stage = 15))
    : p.At 5 := by
  cases h
  constructor <;> grind -ring -linarith -order

theorem At.stoppedBefore (h : p.At 5) (hstop : p.stopRequested = true) : p.At 15 := by
  cases h
  constructor <;> grind -ring -linarith -order

theorem At.exchange (h : p.At 5)
    : ({ p with stopRequested := true } : FfmpegProcess).At (if p.hasPid then 6 else 10) := by
  cases h
  split <;> constructor <;> grind -ring -linarith -order

theorem At.kill (h : p.At 6) (hard : Bool)
    : ({ p with child := p.child.signal hard } : FfmpegProcess).At 7 := by
  cases h
  constructor <;> grind -ring -linarith -order [Child.isUnreaped_signal]

theorem At.late (h : p.At 7) : p.At 8 := by
  cases h
  constructor <;> grind -ring -linarith -order

theorem At.sigkill (h : p.At 8) : ({ p with child := p.child.signal true } : FfmpegProcess).At 9 := by
  cases h
  constructor <;> grind -ring -linarith -order [Child.isUnreaped_signal, Child.killed_signal]

theorem At.reaped {stage : Nat} (h : p.At stage) (hstage : stage = 7 ∨ stage = 9)
    (hchild : ∀ childTable killed, p.child ≠ .running childTable killed)
    : ({ p with child := p.child.reap, hasPid := false } : FfmpegProcess).At 10 := by
  have hreap := Child.isUnreaped_reap hchild
  cases h
  constructor <;> grind -ring -linarith -order

theorem At.joinPump (h : p.At 10) (hpump : p.pump = .absent ∨ p.pump = .done) : p.At 11 := by
  cases h
  constructor <;> grind -ring -linarith -order

theorem At.closeInput (h : p.At 11) : ({ p with inputFd := none } : FfmpegProcess).At 12 := by
  cases h
  constructor <;> grind -ring -linarith -order

theorem At.joinErrorPump (h : p.At 12) (hpump : p.errorPump = .absent ∨ p.errorPump = .done)
    : p.At 13 := by
  cases h
  constructor <;> grind -ring -linarith -order

theorem At.closeOutput (h : p.At 13) : ({ p with outputFd := none } : FfmpegProcess).At 14 := by
  cases h
  constructor <;> grind -ring -linarith -order

theorem At.closeError (h : p.At 14) : ({ p with errorFd := none } : FfmpegProcess).At 15 := by
  cases h
  constructor <;> grind -ring -linarith -order

theorem At.pumpSteps {stage : Nat} (h : p.At stage) (hactive : p.pump.isActive = true) (pump : PumpPc)
    : ({ p with pump } : FfmpegProcess).At stage := by
  cases h
  constructor <;> grind -ring -linarith -order

theorem At.pumpClose {stage : Nat} (h : p.At stage) (hpump : p.pump = .close)
    : ({ p with inputFd := none, pump := .done } : FfmpegProcess).At stage := by
  cases h
  constructor <;> grind -ring -linarith -order

theorem At.errorPumpSteps {stage : Nat} (h : p.At stage) (hactive : p.errorPump.isActive = true)
    (errorPump : ErrorPumpPc) : ({ p with errorPump } : FfmpegProcess).At stage := by
  cases h
  constructor <;> grind -ring -linarith -order

theorem At.exit {stage : Nat} (h : p.At stage) {childTable : Table File} {killed : Bool}
    (hchild : p.child = .running childTable killed)
    : ({ p with child := .zombie } : FfmpegProcess).At stage := by
  have hstage : stage ≠ 0 := by
    intro hzero
    rw [(h.bare hzero).child] at hchild
    cases hchild
  cases h
  constructor <;> grind -ring -linarith -order

end Stages

theorem ends_eq_none_of_nil {thrown : Bool} {ends : Stdio → End → Option Nat}
    (h : EndsAt (.pipeEnds [] thrown) ends) (a : Stdio) (b : End) : ends a b = none := by
  by_contra hne
  exact absurd (h a b hne).1 List.not_mem_nil

theorem inv_of_moves (h : p.Inv) (hmoves : p.Moves number table act table' p') : p'.Inv := by
  have hends := h.ends
  cases hmoves with
  | construct hpc =>
    rw [hpc] at hends
    exact h.bare_pc (by rw [hpc]; rfl) (.inl rfl)
      ⟨fun _ _ ha => absurd ha (Nat.not_lt_zero _), fun a b _ => hends a b⟩
  | throws hpc =>
    exact h.bare_pc hpc.stage (.inl rfl) fun a b _ => ⟨mem_pipeEnds a b, nofun⟩
  | pipe2 hpc =>
    rw [hpc] at hends
    exact h.bare_pc (by rw [hpc]; rfl) (.inl rfl) (endsAt_pipe2 hends)
  | raise hpc hend hlow hraised =>
    rw [hpc] at hends
    obtain ⟨hbefore, hsome, hread, hafter⟩ := hends
    exact h.bare_pc (by rw [hpc]; rfl) (.inl rfl)
      ⟨hbefore, hsome, hread, hafter, hraised, _, hend, hlow⟩
  | keep hpc hend hhigh =>
    rw [hpc] at hends
    obtain ⟨hbefore, hsome, hread, hafter⟩ := hends
    exact h.bare_pc (by rw [hpc]; rfl) (.inl (stage_afterRaise _ _))
      (endsAt_afterRaise hbefore hsome hread ⟨_, hend, hhigh⟩ hafter)
  | closeLow hpc =>
    rw [hpc] at hends
    exact h.bare_pc (by rw [hpc]; rfl) (.inl (stage_afterRaise _ _)) (endsAt_closeLow hends)
  | configured hpc =>
    rw [hpc] at hends
    exact h.bare_pc (by rw [hpc]; rfl) (.inl rfl) hends
  | spawned hpc =>
    rw [hpc] at hends
    have hsome : ∀ a b, p.ends a b ≠ none := by
      intro a b hnone
      obtain ⟨_, hfd, _⟩ := hends a b
      rw [hfd] at hnone
      cases hnone
    refine ⟨(h.at (by rw [hpc]; rfl)).spawned hsome _, fun a b hend => ⟨mem_pipeEnds a b, fun _ => ?_⟩⟩
    by_contra hne
    exact hend (if_neg hne)
  | @closeEnd stdio side left thrown hpc =>
    rw [hpc] at hends
    have hends' := endsAt_closeEnd hends
    cases thrown with
    | true => exact h.bare_pc (by rw [hpc]; rfl) (.inl rfl) hends'
    | false => exact ⟨(h.at (by rw [hpc]; rfl)).owner _ _, hends'⟩
  | unwound hpc =>
    rw [hpc] at hends
    exact h.bare_pc (by rw [hpc]; rfl) (.inr rfl) (ends_eq_none_of_nil hends)
  | handedOver hpc =>
    rw [hpc] at hends
    exact (h.at (by rw [hpc]; rfl)).handedOver.inv rfl (ends_eq_none_of_nil hends)
  | startErrorPump hpc =>
    have hstage : p.pc.stage = 2 := by rw [hpc]; rfl
    exact (h.at hstage).startErrorPump.inv rfl (h.ends_eq_none (by omega))
  | logged hpc =>
    have hstage : p.pc.stage = 3 := by rw [hpc]; rfl
    exact (h.at hstage).logged.inv rfl (h.ends_eq_none (by omega))
  | stops hpc =>
    have hstage := hpc.stage
    exact (h.toAt.stops hstage).inv rfl (h.ends_eq_none hstage.1)
  | startPump hpc hpump =>
    have hstage : p.pc.stage = 4 := by rw [hpc]; rfl
    exact ((h.at hstage).startPump hpump).inv hstage h.ends
  | read => exact h
  | stoppedBefore hpc hstop =>
    have hstage : p.pc.stage = 5 := by rw [hpc]; rfl
    exact ((h.at hstage).stoppedBefore hstop).inv (stage_afterStop _)
      (endsAt_afterStop.mpr (h.ends_eq_none (by omega)))
  | exchange hpc =>
    have hstage : p.pc.stage = 5 := by rw [hpc]; rfl
    exact (h.at hstage).exchange.inv (by split <;> rfl) (h.ends_eq_none (by omega))
  | kill hpc =>
    have hstage : p.pc.stage = 6 := by rw [hpc]; rfl
    exact ((h.at hstage).kill _).inv rfl (h.ends_eq_none (by omega))
  | @waits _ _ late hpc =>
    have hstage : p.pc.stage = 7 := by rw [hpc]; rfl
    cases late with
    | false => exact (h.at hstage).inv rfl (h.ends_eq_none (by omega))
    | true => exact (h.at hstage).late.inv rfl (h.ends_eq_none (by omega))
  | sigkill hpc =>
    have hstage : p.pc.stage = 8 := by rw [hpc]; rfl
    exact (h.at hstage).sigkill.inv rfl (h.ends_eq_none (by omega))
  | waitsOn => exact h
  | reaped hpc hchild =>
    have hstage := hpc.stage
    exact (h.toAt.reaped hstage hchild).inv rfl (h.ends_eq_none (by omega))
  | joinPump hpc hpump =>
    have hstage : p.pc.stage = 10 := by rw [hpc]; rfl
    exact ((h.at hstage).joinPump hpump).inv rfl (h.ends_eq_none (by omega))
  | closeInput hpc =>
    have hstage : p.pc.stage = 11 := by rw [hpc]; rfl
    exact (h.at hstage).closeInput.inv rfl (h.ends_eq_none (by omega))
  | joinErrorPump hpc hpump =>
    have hstage : p.pc.stage = 12 := by rw [hpc]; rfl
    exact ((h.at hstage).joinErrorPump hpump).inv rfl (h.ends_eq_none (by omega))
  | closeOutput hpc =>
    have hstage : p.pc.stage = 13 := by rw [hpc]; rfl
    exact (h.at hstage).closeOutput.inv rfl (h.ends_eq_none (by omega))
  | closeError hpc =>
    have hstage : p.pc.stage = 14 := by rw [hpc]; rfl
    exact (h.at hstage).closeError.inv (stage_afterStop _)
      (endsAt_afterStop.mpr (h.ends_eq_none (by omega)))
  | pump hactive => exact ⟨h.toAt.pumpSteps hactive _, h.ends⟩
  | pumpClose hpump => exact ⟨h.toAt.pumpClose hpump, h.ends⟩
  | errorPump hactive => exact ⟨h.toAt.errorPumpSteps hactive _, h.ends⟩
  | exit hchild => exact ⟨h.toAt.exit hchild, h.ends⟩

end FfmpegProcess
end Spawning
end HikBridge
