import HikBridge.HcSession.Basic
import HikBridge.Lib.Machine

/-!
This module adds the clock to a session with its input pump, and shows exactly when the pump reports
`sdk_data_timeout` for nothing but missing data.
-/

namespace HikBridge

/--
`now` is the steady clock in nanoseconds, `lastData` the local variable of the pump, which it has
still to set while `stamping`. The rest is history: when the pump last got a packet or else started,
whether a write to FFmpeg failed, and for how long there had been no packet when `SdkDataTimeout` was
stored.
-/
structure TimedSession where
  run : SessionRun
  noSdkDataMs : Int
  now : Nat := 0
  lastData : Nat := 0
  stamping : Bool := false
  obtained : Nat := 0
  writeFailed : Bool := false
  silence : Option Nat := none

inductive TimedEvent where
  | session (event : SessionEvent)
  | stamp
  | elapse (nanoseconds : Nat)

namespace TimedSession

variable (t : TimedSession)

def start (w : SessionRun) (noSdkDataMs : Int) : TimedSession where
  run := { w with pump := some {} }
  noSdkDataMs
  stamping := true

def limit : Int := t.noSdkDataMs * 1000000

def recent : Bool := decide ((t.now : Int) - t.lastData < t.limit)

def allows (event : SessionEvent) : Bool :=
  match event, t.run.pump with
  | .pump late, some pump => !t.stamping && (pump.pc != .emptyClock || late == !t.recent)
  | .write _ _, _ => !t.stamping
  | _, _ => true

def record (run : SessionRun) : TimedSession :=
  match t.run.pump, run.pump with
  | none, some _ =>
    { t with run, stamping := true, obtained := t.now, writeFailed := false, silence := none }
  | some before, some after =>
    let popped := decide (before.popped.length < after.popped.length)
    { t with
      run
      stamping := t.stamping || popped
      obtained := if popped then t.now else t.obtained
      writeFailed := t.writeFailed || (before.pc.isWriting && after.pc == .leaving)
      silence :=
        if before.inputEndReason ≠ .SdkDataTimeout ∧ after.inputEndReason = .SdkDataTimeout then
          some (t.now - t.obtained)
        else
          t.silence }
  | _, none => { t with run }

def step (t : TimedSession) : TimedEvent → Option TimedSession
  | .session event => if t.allows event then (t.run.step event).map t.record else none
  | .stamp => if t.stamping then some { t with lastData := t.now, stamping := false } else none
  | .elapse nanoseconds => some { t with now := t.now + nanoseconds }

end TimedSession

namespace SessionRun

def resolveEndReason (w : SessionRun) (pump : Pump) : StreamEndReason :=
  if w.endReason ≠ .Active then w.endReason
  else if pump.inputEndReason = .SdkDataTimeout then .SdkDataTimeout
  else .FfmpegExit

structure PumpFrame (w w' : SessionRun) : Prop where
  pump : w'.pump = w.pump
  closed : w.queue.isClosed = true → w'.queue.isClosed = true

variable {w w' : SessionRun}

theorem PumpFrame.of_eq (hpump : w'.pump = w.pump) (hqueue : w'.queue = w.queue) : PumpFrame w w' :=
  ⟨hpump, fun h => by rw [hqueue]; exact h⟩

theorem pumpFrame_deliver {callback : Nat} {type : UInt32} {data : Option Bytes}
    (hstep : w.deliver callback type data = some w') : PumpFrame w w' := by
  unfold deliver at hstep
  split at hstep
  . cases hstep
    exact .of_eq rfl rfl
  . split at hstep
    . cases hstep
      exact .of_eq rfl rfl
    . split at hstep
      . cases hstep
        exact .of_eq rfl rfl
      . cases hstep
        exact .of_eq rfl rfl
  . contradiction

theorem pumpFrame_afterPush {callback : Nat} {type : UInt32} {packet : Bytes}
    {result : BoundedFifo.Push Bytes × ByteQueue}
    (hclosed : w.queue.isClosed = true → result.2.isClosed = true)
    : PumpFrame w (w.afterPush callback type packet result) := by
  rcases result with ⟨outcome, queue⟩
  cases outcome
  all_goals exact ⟨rfl, hclosed⟩

theorem pumpFrame_acceptData {callback : Nat} {late : Bool}
    (hstep : w.acceptData callback late = some w') : PumpFrame w w' := by
  unfold acceptData at hstep
  split at hstep
  . contradiction
  . split at hstep
    . cases hstep
      exact .of_eq rfl rfl
    . cases hstep
      exact .of_eq rfl rfl
  . cases hstep
    exact pumpFrame_afterPush fun h => ByteQueue.isClosed_push h _ _
  . cases hstep
    exact pumpFrame_afterPush fun h => ByteQueue.isClosed_pushWake h _ _
  . cases hstep
    exact .of_eq rfl rfl
  . cases hstep
    exact .of_eq rfl rfl
  . cases hstep
    exact .of_eq rfl rfl
  . cases hstep
    exact ⟨rfl, ByteQueue.isClosed_close⟩

theorem pumpFrame_monitorStep {input : MonitorInput} (hstep : w.monitorStep input = some w')
    : PumpFrame w w' := by
  cases monitorMoves_of_step hstep with
  | waits keepAliveFailures monitor => exact .of_eq rfl rfl
  | stores hpc => exact .of_eq rfl rfl
  | closes hpc => exact ⟨rfl, ByteQueue.isClosed_close⟩

theorem pumpFrame_stop (hstep : w.stop = some w') : PumpFrame w w' := by
  unfold stop at hstep
  split at hstep
  . cases hstep
    exact .of_eq rfl rfl
  . cases hstep
    exact ⟨rfl, ByteQueue.isClosed_close⟩
  . split at hstep
    . cases hstep
      exact .of_eq rfl rfl
    . contradiction
  . contradiction

inductive PumpMoves (w w' : SessionRun) : SessionEvent → Prop where
  | frame {event : SessionEvent} (h : PumpFrame w w')
      (hpump : ∀ late, event ≠ .pump late) : PumpMoves w w' event
  | start (hpump : w.pump = none) (hpump' : w'.pump = some {}) : PumpMoves w w' .startPump
  | pump (pump : Pump) (late : Bool) (hpump : w.pump = some pump)
      (h : w.pumpStep pump late = some w') : PumpMoves w w' (.pump late)
  | write (pump : Pump) (count : Int) (interrupted : Bool) (hpump : w.pump = some pump)
      (h : w.writeInput pump count interrupted = some w') : PumpMoves w w' (.write count interrupted)
  | stop (pump : Pump) (hpump : w.pump = some pump)
      (h : w' = { w with pump := some { pump with stopRequested := true } }) : PumpMoves w w' .stopPump
  | join (pump : Pump) (hpump : w.pump = some pump) (hpump' : w'.pump = none) : PumpMoves w w' .joinPump

theorem pumpMoves_of_step {event : SessionEvent} (hstep : w.step event = some w')
    : PumpMoves w w' event := by
  unfold step at hstep
  split at hstep
  . exact .frame (pumpFrame_deliver hstep) (by simp)
  . exact .frame (pumpFrame_acceptData hstep) (by simp)
  . split at hstep
    . cases hstep
      exact .frame (.of_eq rfl rfl) (by simp)
    . contradiction
  . exact .frame (pumpFrame_monitorStep hstep) (by simp)
  . exact .frame (pumpFrame_stop hstep) (by simp)
  . next hpump =>
    cases hstep
    exact .start hpump rfl
  . next hpump => exact .pump _ _ hpump hstep
  . next hpump => exact .write _ _ _ hpump hstep
  . next hpump =>
    cases hstep
    exact .stop _ hpump rfl
  . next hpump =>
    split at hstep
    . cases hstep
      exact .join _ hpump rfl
    . contradiction
  . contradiction

end SessionRun

namespace TimedSession

variable {t t' : TimedSession}

-- The pump is out of its loop.
def Left (pc : PumpPc) : Prop := pc = .leaving ∨ pc = .leavingClosed ∨ pc = .closing ∨ pc = .done

/--
No packet was obtained for `no_sdk_data_ms` when `SdkDataTimeout` was stored, and a failed write left
the reason alone, so that the FFmpeg process is what `resolve_end_reason` blames.
-/
structure Honest (t : TimedSession) : Prop where
  silence : ∀ pump, t.run.pump = some pump → pump.inputEndReason = .SdkDataTimeout →
    ∃ d, t.silence = some d ∧ t.limit ≤ d
  active : ∀ pump, t.run.pump = some pump → t.writeFailed = true → pump.inputEndReason = .Active
  resolved : ∀ pump, t.run.pump = some pump → t.writeFailed = true → t.run.endReason = .Active →
    t.run.resolveEndReason pump = .FfmpegExit

/--
The condition on a step: when the pump has left its loop after a failed write and no stop was
requested by then, it finds the queue closed and drained.
-/
def InputOver (t : TimedSession) : TimedEvent → Prop
  | .session (.pump _) => ∀ pump, t.run.pump = some pump → pump.pc = .leavingClosed →
      t.writeFailed = true → t.run.queue.isClosed = true
  | _ => True

structure PumpInv (t : TimedSession) (pump : Pump) : Prop where
  reason : pump.inputEndReason = .Active ∨ pump.inputEndReason = .SdkDataTimeout
  obtained_le : t.obtained ≤ t.now
  lastData_le : t.lastData ≤ t.now
  obtained_le_lastData : t.stamping = false → t.obtained ≤ t.lastData
  timedOut : pump.inputEndReason = .SdkDataTimeout →
    Left pump.pc ∧ t.writeFailed = false ∧ ∃ d, t.silence = some d ∧ t.limit ≤ d
  failed : t.writeFailed = true → Left pump.pc
  leaving : pump.pc = .leaving → t.writeFailed = true ∨ pump.inputEndReason = .SdkDataTimeout
    ∨ pump.stopRequested = true ∨ t.run.queue.isClosed = true
  leavingClosed : pump.pc = .leavingClosed → t.writeFailed = true
    ∨ pump.inputEndReason = .SdkDataTimeout ∨ t.run.queue.isClosed = true

def Inv (t : TimedSession) : Prop :=
  t.lastData ≤ t.now ∧ ∀ pump, t.run.pump = some pump → t.PumpInv pump

section Steps

variable {pump pump' : Pump} {run' : SessionRun}

theorem PumpInv.active (h : t.PumpInv pump) (hpc : ¬ Left pump.pc) : pump.inputEndReason = .Active := by
  rcases h.reason with hreason | hreason
  . exact hreason
  . exact absurd (h.timedOut hreason).1 hpc

theorem PumpInv.not_failed (h : t.PumpInv pump) (hpc : ¬ Left pump.pc) : t.writeFailed = false := by
  cases hfailed : t.writeFailed with
  | true => exact absurd (h.failed hfailed) hpc
  | false => rfl

theorem record_eq (pump' : Pump) (hpump : t.run.pump = some pump) (hpump' : run'.pump = some pump')
    (hpopped : pump'.popped = pump.popped) (hreason : pump'.inputEndReason = pump.inputEndReason)
    (hwriting : pump.pc.isWriting = true → pump'.pc ≠ .leaving) : t.record run' = { t with run := run' } := by
  have hfailed : (pump.pc.isWriting && pump'.pc == .leaving) = false := by
    cases hpc : pump.pc.isWriting with
    | true => simpa using hwriting hpc
    | false => rfl
  unfold record
  rw [hpump, hpump']
  dsimp only
  rw [hpopped, hreason, hfailed]
  simp

theorem PumpInv.move (h : t.PumpInv pump) (hreason : pump'.inputEndReason = pump.inputEndReason)
    (hleft : Left pump.pc → Left pump'.pc)
    (hleaving : pump'.pc = .leaving → t.writeFailed = true ∨ pump'.inputEndReason = .SdkDataTimeout
      ∨ pump'.stopRequested = true ∨ run'.queue.isClosed = true)
    (hleavingClosed : pump'.pc = .leavingClosed → t.writeFailed = true
      ∨ pump'.inputEndReason = .SdkDataTimeout ∨ run'.queue.isClosed = true)
    : PumpInv { t with run := run' } pump' where
  reason := by
    rw [hreason]
    exact h.reason
  obtained_le := h.obtained_le
  lastData_le := h.lastData_le
  obtained_le_lastData := h.obtained_le_lastData
  timedOut := by
    intro htimeout
    rw [hreason] at htimeout
    obtain ⟨hpc, hrest⟩ := h.timedOut htimeout
    exact ⟨hleft hpc, hrest⟩
  failed hfailed := hleft (h.failed hfailed)
  leaving := hleaving
  leavingClosed := hleavingClosed

theorem PumpInv.taken (h : t.PumpInv pump) (hpc : ¬ Left pump.pc) (packet : Bytes)
    : PumpInv { t with run := run', stamping := true, obtained := t.now }
        { pump with pc := .writing packet, popped := pump.popped ++ [packet] } where
  reason := h.reason
  obtained_le := le_refl _
  lastData_le := h.lastData_le
  obtained_le_lastData := by
    intro hstamping
    cases hstamping
  timedOut := by
    intro htimeout
    rw [show pump.inputEndReason = .Active from h.active hpc] at htimeout
    cases htimeout
  failed := by
    intro hfailed
    rw [show t.writeFailed = false from h.not_failed hpc] at hfailed
    cases hfailed
  leaving := by
    intro hleaving
    cases hleaving
  leavingClosed := by
    intro hleaving
    cases hleaving

theorem record_taken (hpump : t.run.pump = some pump) (packet : Bytes)
    (hpump' : run'.pump = some { pump with pc := .writing packet, popped := pump.popped ++ [packet] })
    : t.record run' = { t with run := run', stamping := true, obtained := t.now } := by
  unfold record
  rw [hpump, hpump']
  simp

def PumpAt (t : TimedSession) : Prop := ∃ pump, t.run.pump = some pump ∧ t.PumpInv pump

theorem pumpAt_of_move (pump' : Pump) (h : t.PumpInv pump) (hpump : t.run.pump = some pump)
    (hpump' : run'.pump = some pump') (hpopped : pump'.popped = pump.popped)
    (hreason : pump'.inputEndReason = pump.inputEndReason) (hpc : ¬ Left pump.pc)
    (hwriting : pump.pc.isWriting = true → pump'.pc ≠ .leaving)
    (hleaving : pump'.pc = .leaving → pump'.stopRequested = true ∨ run'.queue.isClosed = true)
    (hleavingClosed : pump'.pc ≠ .leavingClosed) : PumpAt (t.record run') := by
  rw [record_eq _ hpump hpump' hpopped hreason hwriting]
  refine ⟨pump', hpump', h.move hreason ?_ ?_ ?_⟩
  . intro hleft
    exact absurd hleft hpc
  . intro hpc'
    exact .inr (.inr (hleaving hpc'))
  . intro hpc'
    exact absurd hpc' hleavingClosed

theorem pumpAt_afterPop (h : t.PumpInv pump) (hpump : t.run.pump = some pump) (hpc : ¬ Left pump.pc)
    (hwriting : pump.pc.isWriting = false) (result : BoundedFifo.Pop Bytes × ByteQueue)
    : PumpAt (t.record (t.run.afterPop pump result)) := by
  rcases result with ⟨outcome, queue⟩
  cases outcome with
  | taken packet =>
    rw [record_taken hpump packet rfl]
    exact ⟨_, rfl, h.taken hpc packet⟩
  | nothing =>
    apply pumpAt_of_move { pump with pc := .emptyStop } h hpump rfl rfl rfl hpc
    all_goals simp [hwriting]
  | waiting =>
    apply pumpAt_of_move { pump with pc := .waiting } h hpump rfl rfl rfl hpc
    all_goals simp [hwriting]

theorem PumpInv.expire (h : t.PumpInv pump) (hpump : t.run.pump = some pump) (hpc : pump.pc = .emptyClock)
    (hstamping : t.stamping = false) (hlate : t.recent = false)
    : PumpAt (t.record { t.run with
        pump := some { pump with pc := .leaving, inputEndReason := .SdkDataTimeout } }) := by
  have hloop : ¬ Left pump.pc := by simp [Left, hpc]
  have hactive := h.active hloop
  have hfailed := h.not_failed hloop
  have hle := h.obtained_le_lastData hstamping
  have hnow := h.lastData_le
  have hrecord : t.record { t.run with
        pump := some { pump with pc := .leaving, inputEndReason := .SdkDataTimeout } }
      = { t with
          run := { t.run with
            pump := some { pump with pc := .leaving, inputEndReason := .SdkDataTimeout } }
          silence := some (t.now - t.obtained) } := by
    unfold record
    rw [hpump]
    simp [hactive, hpc, PumpPc.isWriting]
  have hsilence : t.limit ≤ ((t.now - t.obtained : Nat) : Int) := by
    simp only [recent, decide_eq_false_iff_not, not_lt] at hlate
    omega
  rw [hrecord]
  refine ⟨_, rfl, ?_⟩
  constructor
  . exact .inr rfl
  . exact h.obtained_le
  . exact h.lastData_le
  . exact h.obtained_le_lastData
  . intro _
    exact ⟨.inl rfl, hfailed, _, rfl, hsilence⟩
  . intro hf
    rw [show t.writeFailed = false from hfailed] at hf
    cases hf
  . intro _
    exact .inr (.inl rfl)
  . intro hpc'
    cases hpc'

theorem PumpInv.leave (h : t.PumpInv pump) (hpump : t.run.pump = some pump) (pc : PumpPc)
    (hleft : Left pc) (hne : pc ≠ .leaving)
    (hleavingClosed : pc = .leavingClosed → t.writeFailed = true
      ∨ pump.inputEndReason = .SdkDataTimeout ∨ t.run.queue.isClosed = true)
    : PumpAt (t.record { t.run with pump := some { pump with pc } }) := by
  rw [record_eq { pump with pc } hpump rfl rfl rfl (fun _ => hne)]
  refine ⟨_, rfl, h.move rfl (fun _ => hleft) ?_ hleavingClosed⟩
  intro hpc
  exact absurd hpc hne

theorem PumpInv.stay (h : t.PumpInv pump) (hpump : t.run.pump = some pump) (hpc : ¬ Left pump.pc)
    (pc : PumpPc) (hwriting : pump.pc.isWriting = true → pc ≠ .leaving)
    (hleaving : pc = .leaving → pump.stopRequested = true ∨ t.run.queue.isClosed = true)
    (hne : pc ≠ .leavingClosed) : PumpAt (t.record { t.run with pump := some { pump with pc } }) :=
  pumpAt_of_move { pump with pc } h hpump rfl rfl rfl hpc hwriting hleaving hne

-- A check in the loop that may leave it.
theorem PumpInv.check {c : Prop} [Decidable c] (h : t.PumpInv pump) (hpump : t.run.pump = some pump)
    (hpc : ¬ Left pump.pc) (hwriting : pump.pc.isWriting = false)
    (hleaving : c → pump.stopRequested = true ∨ t.run.queue.isClosed = true) (next : PumpPc)
    (hnext : next ≠ .leaving ∧ next ≠ .leavingClosed)
    : PumpAt (t.record { t.run with pump := some { pump with pc := if c then .leaving else next } }) := by
  by_cases hc : c
  . rw [if_pos hc]
    exact h.stay hpump hpc .leaving (by simp [hwriting]) (fun _ => hleaving hc) (by simp)
  . rw [if_neg hc]
    exact h.stay hpump hpc next (fun _ => hnext.1) (fun heq => absurd heq hnext.1) hnext.2

theorem pumpAt_pumpStep {late : Bool} (h : t.PumpInv pump) (hpump : t.run.pump = some pump)
    (hallows : t.allows (.pump late) = true) (hover : InputOver t (.session (.pump late)))
    (hstep : t.run.pumpStep pump late = some run') : PumpAt (t.record run') := by
  simp only [allows, hpump, Bool.and_eq_true, Bool.or_eq_true, Bool.not_eq_true', bne_iff_ne,
    beq_iff_eq] at hallows
  unfold SessionRun.pumpStep at hstep
  split at hstep
  next hpc =>
    cases hstep
    exact h.check hpump (by simp [Left, hpc]) (by simp [hpc, PumpPc.isWriting]) .inl .popping (by simp)
  next hpc =>
    cases hstep
    exact pumpAt_afterPop h hpump (by simp [Left, hpc]) (by simp [hpc, PumpPc.isWriting]) _
  next hpc =>
    cases hstep
    exact pumpAt_afterPop h hpump (by simp [Left, hpc]) (by simp [hpc, PumpPc.isWriting]) _
  next hpc =>
    cases hstep
    exact h.check hpump (by simp [Left, hpc]) (by simp [hpc, PumpPc.isWriting]) .inl .emptyClosed (by simp)
  next hpc =>
    cases hstep
    exact h.check hpump (by simp [Left, hpc]) (by simp [hpc, PumpPc.isWriting]) .inr .emptyClock (by simp)
  next hpc =>
    split at hstep
    next hlate =>
      cases hstep
      rcases hallows.2 with hne | heq
      . exact absurd hpc hne
      . exact h.expire hpump hpc hallows.1 (by simpa [hlate] using heq)
    next =>
      cases hstep
      exact h.stay hpump (by simp [Left, hpc]) .loop (by simp) (by simp) (by simp)
  next hpc =>
    cases hstep
    exact h.stay hpump (by simp [Left, hpc]) .loop (by simp) (by simp) (by simp)
  next => cases hstep
  next hpc =>
    cases hstep
    by_cases hstop : pump.stopRequested = true
    . rw [if_pos hstop]
      exact h.leave hpump .closing (by simp [Left]) (by simp) (by simp)
    . rw [if_neg hstop]
      apply h.leave hpump .leavingClosed (by simp [Left]) (by simp)
      intro _
      rcases h.leaving hpc with hfailed | htimeout | hstop' | hclosed
      . exact .inl hfailed
      . exact .inr (.inl htimeout)
      . exact absurd hstop' hstop
      . exact .inr (.inr hclosed)
  next hpc =>
    cases hstep
    have hsame : (if t.run.queue.isClosed = true then pump.inputEndReason else .SdkDataTimeout)
        = pump.inputEndReason := by
      split
      . rfl
      next hopen =>
        rcases h.leavingClosed hpc with hfailed | htimeout | hclosed
        . exact absurd (hover pump hpump hpc hfailed) hopen
        . exact htimeout.symm
        . exact absurd hclosed hopen
    rw [hsame]
    exact h.leave hpump .closing (by simp [Left]) (by simp) (by simp)
  next =>
    cases hstep
    exact h.leave hpump .done (by simp [Left]) (by simp) (by simp)
  next => cases hstep

theorem pumpAt_writeInput {count : Int} {interrupted : Bool} (h : t.PumpInv pump)
    (hpump : t.run.pump = some pump) (hstep : t.run.writeInput pump count interrupted = some run')
    : PumpAt (t.record run') := by
  unfold SessionRun.writeInput at hstep
  split at hstep
  next byte bytes hpc =>
    have hloop : ¬ Left pump.pc := by simp [Left, hpc]
    dsimp only at hstep
    split at hstep
    next =>
      cases hstep
      apply pumpAt_of_move pump h hpump hpump rfl rfl hloop
      all_goals simp [hpc]
    next =>
      split at hstep
      next =>
        cases hstep
        have hrecord : t.record { t.run with pump := some { pump with pc := .leaving } }
            = { t with run := { t.run with pump := some { pump with pc := .leaving } }, writeFailed := true } := by
          unfold record
          rw [hpump]
          simp [hpc, PumpPc.isWriting]
        rw [hrecord]
        refine ⟨_, rfl, ?_⟩
        constructor
        . exact h.reason
        . exact h.obtained_le
        . exact h.lastData_le
        . exact h.obtained_le_lastData
        . intro htimeout
          rw [show pump.inputEndReason = .Active from h.active hloop] at htimeout
          cases htimeout
        . exact fun _ => .inl rfl
        . exact fun _ => .inl rfl
        . intro hpc'
          cases hpc'
      next =>
        split at hstep
        next => cases hstep
        next =>
          cases hstep
          apply pumpAt_of_move
            { pump with
              pc := .writing ((byte :: bytes).drop count.toNat)
              written := pump.written ++ (byte :: bytes).take count.toNat } h hpump rfl rfl rfl hloop
          all_goals simp
  next => cases hstep

theorem PumpInv.frame (h : t.PumpInv pump) (hpump : t.run.pump = some pump)
    (hpump' : run'.pump = some pump') (hpc : pump'.pc = pump.pc) (hpopped : pump'.popped = pump.popped)
    (hreason : pump'.inputEndReason = pump.inputEndReason)
    (hstop : pump.stopRequested = true → pump'.stopRequested = true)
    (hclosed : t.run.queue.isClosed = true → run'.queue.isClosed = true) : PumpAt (t.record run') := by
  have hwriting : pump.pc.isWriting = true → pump'.pc ≠ .leaving := by
    rw [hpc]
    intro hw hleaving
    rw [hleaving] at hw
    cases hw
  rw [record_eq _ hpump hpump' hpopped hreason hwriting]
  refine ⟨pump', hpump', h.move hreason ?_ ?_ ?_⟩
  . rw [hpc]
    exact id
  . rw [hpc, hreason]
    intro hleaving
    exact (h.leaving hleaving).imp_right (Or.imp_right (Or.imp hstop hclosed))
  . rw [hpc, hreason]
    intro hleaving
    exact (h.leavingClosed hleaving).imp_right (Or.imp_right hclosed)

theorem inv_session {event : SessionEvent} (h : Inv t) (hallows : t.allows event = true)
    (hover : InputOver t (.session event)) (hstep : t.run.step event = some run')
    : Inv (t.record run') := by
  have hnow : (t.record run').lastData ≤ (t.record run').now := by
    unfold record
    split
    all_goals exact h.1
  refine ⟨hnow, ?_⟩
  suffices hat : run'.pump ≠ none → PumpAt (t.record run') by
    intro pump' hpump'
    have hrun : (t.record run').run = run' := by
      unfold record
      split
      all_goals rfl
    rw [hrun] at hpump'
    obtain ⟨pump'', hpump'', hinv⟩ := hat (by simp [hpump'])
    rw [hrun, hpump'] at hpump''
    cases hpump''
    exact hinv
  intro hsome
  cases SessionRun.pumpMoves_of_step hstep with
  | frame hframe =>
    obtain ⟨pump, hpump'⟩ := Option.ne_none_iff_exists'.mp hsome
    have hpump := hframe.pump.symm.trans hpump'
    exact (h.2 pump hpump).frame hpump hpump' rfl rfl rfl id hframe.closed
  | start hpump hpump' =>
    have hrecord : t.record run'
        = { t with run := run', stamping := true, obtained := t.now, writeFailed := false, silence := none } := by
      unfold record
      rw [hpump, hpump']
    rw [hrecord]
    refine ⟨{}, hpump', ?_⟩
    constructor
    all_goals simp [h.1]
  | pump pump late hpump hpumpStep => exact pumpAt_pumpStep (h.2 pump hpump) hpump hallows hover hpumpStep
  | write pump count interrupted hpump hwrite => exact pumpAt_writeInput (h.2 pump hpump) hpump hwrite
  | stop pump hpump heq =>
    subst heq
    exact (h.2 pump hpump).frame hpump rfl rfl rfl rfl (fun _ => rfl) id
  | join pump hpump hpump' => exact absurd hpump' hsome

theorem inv_step (t : TimedSession) (e : TimedEvent) (t' : TimedSession) (h : Inv t)
    (hover : InputOver t e) (hstep : step t e = some t') : Inv t' := by
  cases e with
  | session event =>
    simp only [step] at hstep
    split at hstep
    next hallows =>
      obtain ⟨run', hrun, rfl⟩ := Option.map_eq_some_iff.mp hstep
      exact inv_session h hallows hover hrun
    next => cases hstep
  | stamp =>
    simp only [step] at hstep
    split at hstep
    next =>
      cases hstep
      refine ⟨le_refl _, ?_⟩
      intro pump hpump
      have hp := h.2 pump hpump
      exact ⟨hp.reason, hp.obtained_le, le_refl _, fun _ => hp.obtained_le, hp.timedOut, hp.failed,
        hp.leaving, hp.leavingClosed⟩
    next => cases hstep
  | elapse nanoseconds =>
    cases hstep
    refine ⟨h.1.trans (Nat.le_add_right _ _), ?_⟩
    intro pump hpump
    have hp := h.2 pump hpump
    exact ⟨hp.reason, hp.obtained_le.trans (Nat.le_add_right _ _),
      hp.lastData_le.trans (Nat.le_add_right _ _), hp.obtained_le_lastData, hp.timedOut, hp.failed,
      hp.leaving, hp.leavingClosed⟩

theorem inv_start (w : SessionRun) (noSdkDataMs : Int) : Inv (start w noSdkDataMs) := by
  refine ⟨le_refl _, ?_⟩
  intro pump hpump
  cases hpump
  constructor
  all_goals simp [start]

theorem resolveEndReason_of_active {pump : Pump} (hactive : pump.inputEndReason = .Active)
    (hsession : t.run.endReason = .Active) : t.run.resolveEndReason pump = .FfmpegExit := by
  simp [SessionRun.resolveEndReason, hsession, hactive]

theorem Inv.honest (h : Inv t) : Honest t where
  silence pump hpump htimeout := ((h.2 pump hpump).timedOut htimeout).2.2
  active := by
    intro pump hpump hfailed
    rcases (h.2 pump hpump).reason with hreason | hreason
    . exact hreason
    . rw [((h.2 pump hpump).timedOut hreason).2.1] at hfailed
      cases hfailed
  resolved := by
    intro pump hpump hfailed hsession
    apply resolveEndReason_of_active _ hsession
    rcases (h.2 pump hpump).reason with hreason | hreason
    . exact hreason
    . rw [((h.2 pump hpump).timedOut hreason).2.1] at hfailed
      cases hfailed

end Steps

section Runs

variable {w : SessionRun} {noSdkDataMs : Int} {es : List TimedEvent} {e : TimedEvent}

theorem inputOver_of_honest (hstep : step t e = some t') (h : Honest t') : InputOver t e := by
  cases e with
  | session event =>
    cases event with
    | pump late =>
      intro pump hpump hpc hfailed
      by_contra hopen
      simp only [step] at hstep
      split at hstep
      next =>
        obtain ⟨run', hrun, rfl⟩ := Option.map_eq_some_iff.mp hstep
        simp only [SessionRun.step, hpump, SessionRun.pumpStep, hpc] at hrun
        cases hrun
        rw [if_neg hopen] at h
        have hactive := h.active { pump with pc := .closing, inputEndReason := .SdkDataTimeout }
        unfold record at hactive
        rw [hpump] at hactive
        simp [hfailed] at hactive
      next => cases hstep
    | _ => trivial
  | _ => trivial

/--
Every state that a run reaches is honest if and only if every step of it meets the condition.
-/
theorem honest_iff_inputOver {t : TimedSession} (hrun : Machine.run step (start w noSdkDataMs) es = some t)
    : (∀ before v, before <+: es → Machine.run step (start w noSdkDataMs) before = some v → Honest v)
        ↔
      Machine.Meets step InputOver (start w noSdkDataMs) es := by
  constructor
  . intro h
    rw [Machine.meets_iff_forall]
    intro before e after v hes hbefore
    have hsplit : before ++ e :: after = (before ++ [e]) ++ after := by simp
    rw [hes, hsplit] at hrun
    obtain ⟨v', hv', -⟩ := Machine.run_append_eq_some.mp hrun
    obtain ⟨u, hu, hstep⟩ := Machine.run_append_eq_some.mp hv'
    rw [hbefore] at hu
    cases hu
    obtain ⟨v'', hstep', hnil⟩ := Machine.run_cons_eq_some.mp hstep
    cases hnil
    apply inputOver_of_honest hstep'
    apply h (before ++ [e]) _ _ hv'
    rw [hes, hsplit]
    exact List.prefix_append _ _
  . rintro h before v ⟨after, rfl⟩ hbefore
    have hmeets := (Machine.meets_append hbefore h).1
    exact (Machine.run_invariant_of_meets inv_step (inv_start w noSdkDataMs) hmeets hbefore).honest

def brokenPipeRun : List TimedEvent :=
  [.stamp, .session (.deliver 0 2 (some [1, 2])), .session (.callback 0 false),
    .session (.callback 0 false), .session (.pump false), .session (.pump false), .stamp,
    .session (.write (-1) false), .session (.pump false), .session (.pump false),
    .session (.pump false)]

/--
`sdk_data_timeout` is reported at the moment at which a packet was obtained.
-/
theorem sdkDataTimeout_of_brokenPipe
    : ∃ t, Machine.run step (start (SessionRun.start 100 false) 5000) brokenPipeRun = some t
        ∧ ∃ pump, t.run.pump = some pump
          ∧ pump.popped = [[1, 2]]
          ∧ pump.inputEndReason = .SdkDataTimeout
          ∧ t.silence = some 0
          ∧ t.run.endReason = .Active
          ∧ t.run.resolveEndReason pump = .SdkDataTimeout :=
  ⟨_, rfl, _, rfl, rfl, rfl, rfl, rfl, rfl⟩

def writtenRun : List TimedEvent :=
  [.stamp, .session (.deliver 0 2 (some [1, 2])), .session (.callback 0 false),
    .session (.callback 0 false), .session (.pump false), .session (.pump false), .stamp,
    .session (.write 2 false), .session (.pump false), .elapse 6000000000, .session (.pump false),
    .session (.pump false), .session (.pump true), .session (.pump false), .session (.pump false),
    .session (.pump true)]

theorem honest_iff_inputOver_writtenRun
    : ∃ t, Machine.run step (start (SessionRun.start 100 false) 5000) writtenRun = some t
        ∧ (t.run.pump.map Pump.inputEndReason = some .SdkDataTimeout ∧ t.silence = some 6000000000)
        ∧ ((∀ before v, before <+: writtenRun →
              Machine.run step (start (SessionRun.start 100 false) 5000) before = some v → Honest v)
            ↔
          Machine.Meets step InputOver (start (SessionRun.start 100 false) 5000) writtenRun) := by
  obtain ⟨t, hrun, hend⟩ : ∃ t, Machine.run step (start (SessionRun.start 100 false) 5000) writtenRun = some t
      ∧ (t.run.pump.map Pump.inputEndReason = some .SdkDataTimeout ∧ t.silence = some 6000000000) :=
    ⟨_, rfl, rfl, rfl⟩
  exact ⟨t, hrun, hend, honest_iff_inputOver hrun⟩

end Runs

end TimedSession
end HikBridge
