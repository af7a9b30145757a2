import HikBridge.HcSession.Delivery
import HikBridge.Lib.PolledTimer

/-!
This module contains the clock of the playback monitor: when it keeps the playback alive and when it asks
for the position, while the callbacks, the pump and the owner of the session go on.
-/

namespace HikBridge

open SessionRun

/--
A session whose monitor reads the clock in nanoseconds. `answers` keeps what the SDK has answered to the
keep-alives.
-/
structure TimedMonitor where
  run : SessionRun
  period : Int
  started : Int := 0
  now : Int := 0
  keepAlive : PolledTimer := { next := 0 }
  position : PolledTimer := { next := 0 }
  answers : List Bool := []

def MonitorPc.positionDue : MonitorPc → Bool
  | .keepAlive due | .keptAlive due => due
  | .completing _ resume | .storing _ resume | .closing resume => resume.getD false
  | .position => true
  | _ => false

def MonitorPc.isWatching : MonitorPc → Bool
  | .notStarted | .exited => false
  | _ => true

def SessionEvent.isMonitor : SessionEvent → Bool
  | .monitor _ => true
  | _ => false

namespace TimedMonitor

variable (t : TimedMonitor)

def positionPeriod : Int := 500000000

-- `playback_keep_alive_ms`
def create (limit : Nat) (windows : Bool) (keepAliveMs : Int) : TimedMonitor where
  run := SessionRun.start limit windows
  period := keepAliveMs * 1000000

def allows (time : Int) : SessionEvent → Bool
  | .monitor input =>
    t.run.monitor != .sleeping
      || decide (t.now ≤ time) && input.keepAliveDue == t.keepAlive.due time
        && input.positionDue == t.position.due time
  | _ => true

def record (time : Int) (run : SessionRun) : SessionEvent → TimedMonitor
  | .startMonitor =>
    { t with
      run, started := time, now := time
      keepAlive := { next := time + t.period }
      position := { next := time } }
  | .monitor input =>
    match t.run.monitor with
    | .sleeping => { t with run, now := time }
    | .keepAlive _ =>
      { t with run, keepAlive := t.keepAlive.fire t.period t.now, answers := t.answers ++ [input.keptAlive] }
    | .position => { t with run, position := t.position.fire positionPeriod t.now }
    | _ => { t with run }
  | _ => { t with run }

def step (t : TimedMonitor) : SessionEvent × Int → Option TimedMonitor
  | (event, time) =>
    if t.allows time event then (t.run.step event).map fun run => t.record time run event else none

def Prompt (slack : Int) (t : TimedMonitor) (event : SessionEvent × Int) : Prop :=
  event.1.isMonitor → t.run.monitor = .sleeping → event.2 ≤ t.now + slack

instance (slack : Int) (t : TimedMonitor) (event : SessionEvent × Int) : Decidable (Prompt slack t event) :=
  instDecidableForall

structure Watching (slack : Int) : Prop where
  keepAliveDue : ∀ due, t.run.monitor = .keepAlive due →
    t.keepAlive.next ≤ t.now ∧ t.now ≤ t.keepAlive.next + slack
  keepAliveSet : (∀ due, t.run.monitor ≠ .keepAlive due) → t.now ≤ t.keepAlive.next
  positionDue : t.run.monitor.positionDue → t.position.next ≤ t.now ∧ t.now ≤ t.position.next + slack
  positionSet : t.run.monitor.positionDue = false → t.now ≤ t.position.next

structure Inv (slack : Int) : Prop where
  period : 0 ≤ t.period
  slack_nonneg : 0 ≤ slack
  keepAlive : t.run.monitor ≠ .notStarted →
    t.keepAlive.Paced t.period slack (t.started + t.period)
  position : t.run.monitor ≠ .notStarted → t.position.Paced positionPeriod slack t.started
  watching : t.run.monitor.isWatching → t.Watching slack

variable {t} {t' : TimedMonitor} {slack : Int}

structure OthersMove (w w' : SessionRun) : Prop where
  monitor : w'.monitor = w.monitor
  failures : w'.keepAliveFailures = w.keepAliveFailures
  reason : w'.endReason = w.endReason ∨ w'.endReason = .QueueOverflow

section OthersMove

variable {w w' : SessionRun}

theorem othersMove_acceptData {callback : Nat} {late : Bool} (hstep : w.acceptData callback late = some w')
    : OthersMove w w' := by
  unfold acceptData at hstep
  split at hstep
  . cases hstep
  . split at hstep <;> cases hstep <;> exact ⟨rfl, rfl, .inl rfl⟩
  . cases hstep
    unfold afterPush
    split <;> exact ⟨rfl, rfl, .inl rfl⟩
  . cases hstep
    unfold afterPush
    split <;> exact ⟨rfl, rfl, .inl rfl⟩
  . cases hstep
    exact ⟨rfl, rfl, .inl rfl⟩
  . cases hstep
    exact ⟨rfl, rfl, .inl rfl⟩
  . cases hstep
    exact ⟨rfl, rfl, .inr rfl⟩
  . cases hstep
    exact ⟨rfl, rfl, .inl rfl⟩

theorem othersMove_deliver {callback : Nat} {type : UInt32} {data : Option Bytes}
    (hstep : w.deliver callback type data = some w') : OthersMove w w' := by
  unfold deliver at hstep
  split at hstep
  . cases hstep
    exact ⟨rfl, rfl, .inl rfl⟩
  . split at hstep
    . cases hstep
      exact ⟨rfl, rfl, .inl rfl⟩
    . split at hstep <;> cases hstep <;> exact ⟨rfl, rfl, .inl rfl⟩
  . cases hstep

theorem othersMove_stop (hstep : w.stop = some w') : OthersMove w w' := by
  unfold stop at hstep
  split at hstep
  . cases hstep
    exact ⟨rfl, rfl, .inl rfl⟩
  . cases hstep
    exact ⟨rfl, rfl, .inl rfl⟩
  . split at hstep <;> cases hstep
    exact ⟨rfl, rfl, .inl rfl⟩
  . cases hstep

theorem othersMove_of_step {event : SessionEvent} (hstep : w.step event = some w')
    (hevent : event.isMonitor = false) (hstart : event ≠ .startMonitor) : OthersMove w w' := by
  unfold SessionRun.step at hstep
  split at hstep
  . exact othersMove_deliver hstep
  . exact othersMove_acceptData hstep
  . exact absurd rfl hstart
  . cases hevent
  . exact othersMove_stop hstep
  . cases hstep
    exact ⟨rfl, rfl, .inl rfl⟩
  . rcases pumpStep_cases hstep with ⟨timedOut, rfl⟩ | ⟨pump', rfl⟩
    . unfold afterPop
      split <;> exact ⟨rfl, rfl, .inl rfl⟩
    . exact ⟨rfl, rfl, .inl rfl⟩
  . rcases writeInput_cases hstep with rfl | ⟨pump', rfl⟩
    . exact ⟨rfl, rfl, .inl rfl⟩
    . exact ⟨rfl, rfl, .inl rfl⟩
  . cases hstep
    exact ⟨rfl, rfl, .inl rfl⟩
  . split at hstep <;> cases hstep
    exact ⟨rfl, rfl, .inl rfl⟩
  . cases hstep

theorem record_other {event : SessionEvent} {time : Int} (hevent : event.isMonitor = false)
    (hstart : event ≠ .startMonitor) : t.record time w' event = { t with run := w' } := by
  cases event <;> first | rfl | simp_all [SessionEvent.isMonitor]

end OthersMove

theorem Inv.ofSame {run : SessionRun} (h : t.Inv slack) (hmonitor : run.monitor = t.run.monitor)
    : Inv { t with run } slack where
  period := h.period
  slack_nonneg := h.slack_nonneg
  keepAlive hstarted := h.keepAlive (by rwa [← hmonitor])
  position hstarted := h.position (by rwa [← hmonitor])
  watching hwatching := by
    rw [hmonitor] at hwatching
    obtain ⟨hdue, hset, hposition, hlater⟩ := h.watching hwatching
    constructor <;> rw [hmonitor] <;> assumption

theorem Inv.ofMove {run : SessionRun} (h : t.Inv slack) (hwatching : t.run.monitor.isWatching)
    (hbefore : ∀ due, t.run.monitor ≠ .keepAlive due) (hafter : ∀ due, run.monitor ≠ .keepAlive due)
    (hposition : run.monitor.isWatching → run.monitor.positionDue = t.run.monitor.positionDue)
    : Inv { t with run } slack := by
  have hstarted : t.run.monitor ≠ .notStarted := by
    intro heq
    rw [heq] at hwatching
    cases hwatching
  obtain ⟨hdue, hset, hpos, hlater⟩ := h.watching hwatching
  refine ⟨h.period, h.slack_nonneg, fun _ => h.keepAlive hstarted, fun _ => h.position hstarted, ?_⟩
  intro hwatching'
  exact {
    keepAliveDue := fun due heq => absurd heq (hafter due)
    keepAliveSet := fun _ => hset hbefore
    positionDue := fun hdue => hpos (by rwa [← hposition hwatching'])
    positionSet := fun hdue => hlater (by rwa [← hposition hwatching']) }

theorem resumed_not_keepAlive (resume : Option Bool) (due : Bool) : MonitorPc.resumed resume ≠ .keepAlive due := by
  cases resume <;> simp [MonitorPc.resumed]

theorem positionDue_resumed {resume : Option Bool} (h : (MonitorPc.resumed resume).isWatching)
    : (MonitorPc.resumed resume).positionDue = resume.getD false := by
  cases resume with
  | none => cases h
  | some due => rfl

/--
The round reads the clock, and what it finds due is due now.
-/
theorem Inv.read {input : MonitorInput} {time : Int} {run : SessionRun} (h : t.Inv slack)
    (hpc : t.run.monitor = .sleeping) (hallows : t.allows time (.monitor input))
    (hprompt : time ≤ t.now + slack)
    (hmonitor : run.monitor = if input.keepAliveDue then .keepAlive input.positionDue
      else if input.positionDue then .position else .loop)
    : Inv { t with run, now := time } slack := by
  simp only [allows, hpc, bne_self_eq_false, Bool.false_or, Bool.and_eq_true, decide_eq_true_eq,
    beq_iff_eq] at hallows
  obtain ⟨⟨hforward, hkeepAlive⟩, hposition⟩ := hallows
  obtain ⟨-, hset, -, hlater⟩ := h.watching (by rw [hpc]; rfl)
  specialize hset (by simp [hpc])
  specialize hlater (by rw [hpc]; rfl)
  have hstarted : t.run.monitor ≠ .notStarted := by simp [hpc]
  have hdue : run.monitor.positionDue = input.positionDue := by
    rw [hmonitor]
    split
    . rfl
    . split <;> simp_all [MonitorPc.positionDue]
  refine ⟨h.period, h.slack_nonneg, fun _ => h.keepAlive hstarted, fun _ => h.position hstarted, ?_⟩
  intro _
  constructor
  . intro due heq
    have hfires : input.keepAliveDue = true := by
      by_contra hnot
      change run.monitor = _ at heq
      rw [hmonitor, if_neg hnot] at heq
      split at heq <;> cases heq
    rw [hfires] at hkeepAlive
    exact ⟨of_decide_eq_true hkeepAlive.symm, by dsimp only; omega⟩
  . intro hnot
    have hwaits : input.keepAliveDue = false := by
      rw [Bool.eq_false_iff]
      intro hfires
      exact hnot input.positionDue (by rw [hmonitor, if_pos hfires])
    rw [hwaits] at hkeepAlive
    have hnotDue := of_decide_eq_false hkeepAlive.symm
    dsimp only
    omega
  . intro hfires
    change run.monitor.positionDue = true at hfires
    rw [hdue] at hfires
    rw [hfires] at hposition
    exact ⟨of_decide_eq_true hposition.symm, by dsimp only; omega⟩
  . intro hwaits
    change run.monitor.positionDue = false at hwaits
    rw [hdue] at hwaits
    rw [hwaits] at hposition
    have hnotDue := of_decide_eq_false hposition.symm
    dsimp only
    omega

theorem Inv.keepAliveSent {input : MonitorInput} {time : Int} {run : SessionRun} {due : Bool}
    (h : t.Inv slack) (hpc : t.run.monitor = .keepAlive due) (hstep : t.run.monitorStep input = some run)
    : (t.record time run (.monitor input)).Inv slack := by
  have hstarted : t.run.monitor ≠ .notStarted := by simp [hpc]
  obtain ⟨hdue, -, hpos, hlater⟩ := h.watching (by rw [hpc]; rfl)
  rw [hpc] at hpos hlater
  obtain ⟨hreached, hlate⟩ := hdue due hpc
  have hperiod := h.period
  have hafter : run.monitor.positionDue = due ∧ ∀ other, run.monitor ≠ .keepAlive other := by
    unfold monitorStep at hstep
    simp only [hpc] at hstep
    split at hstep <;> cases hstep
    . exact ⟨rfl, by simp⟩
    . dsimp only
      split <;> exact ⟨rfl, by simp⟩
  simp only [hpc, record]
  refine ⟨h.period, h.slack_nonneg, fun _ => (h.keepAlive hstarted).fire hreached hlate,
    fun _ => h.position hstarted, fun _ => ⟨?_, ?_, ?_, ?_⟩⟩
  . intro other heq
    exact absurd heq (hafter.2 other)
  . intro _
    rw [PolledTimer.fire_next]
    dsimp only
    omega
  . intro hpositionDue
    exact hpos (hafter.1.symm.trans hpositionDue)
  . intro hpositionDue
    exact hlater (hafter.1.symm.trans hpositionDue)

theorem Inv.positionAsked {input : MonitorInput} {time : Int} {run : SessionRun} (h : t.Inv slack)
    (hpc : t.run.monitor = .position) (hstep : t.run.monitorStep input = some run)
    : (t.record time run (.monitor input)).Inv slack := by
  have hstarted : t.run.monitor ≠ .notStarted := by simp [hpc]
  obtain ⟨-, hset, hpos, -⟩ := h.watching (by rw [hpc]; rfl)
  obtain ⟨hreached, hlate⟩ := hpos (by rw [hpc]; rfl)
  have hafter : run.monitor.positionDue = false ∧ ∀ other, run.monitor ≠ .keepAlive other := by
    unfold monitorStep at hstep
    simp only [hpc] at hstep
    cases hstep
    dsimp only
    split
    . exact ⟨rfl, by simp⟩
    . split <;> exact ⟨rfl, by simp⟩
  simp only [hpc, record]
  refine ⟨h.period, h.slack_nonneg, fun _ => h.keepAlive hstarted,
    fun _ => (h.position hstarted).fire hreached hlate, fun _ => ⟨?_, ?_, ?_, ?_⟩⟩
  . intro other heq
    exact absurd heq (hafter.2 other)
  . intro _
    exact hset (by simp [hpc])
  . intro hpositionDue
    cases hafter.1.symm.trans hpositionDue
  . intro _
    rw [PolledTimer.fire_next]
    dsimp only [positionPeriod]
    omega

theorem Inv.keptAlive {input : MonitorInput} {time : Int} {run : SessionRun} {due : Bool} (h : t.Inv slack)
    (hpc : t.run.monitor = .keptAlive due) (hstep : t.run.monitorStep input = some run)
    : (t.record time run (.monitor input)).Inv slack := by
  unfold monitorStep at hstep
  simp only [hpc, record] at hstep ⊢
  cases hstep
  apply h.ofMove
  . rw [hpc]; rfl
  . simp [hpc]
  . intro other
    dsimp only
    split
    . simp
    . split <;> simp
  . dsimp only
    rw [hpc]
    split
    . intro hwatching
      cases hwatching
    . intro _
      cases due <;> rfl

theorem Inv.ending {input : MonitorInput} {time : Int} {run : SessionRun} {resume : Option Bool}
    (h : t.Inv slack)
    (hpc : (∃ reason, t.run.monitor = .completing reason resume ∨ t.run.monitor = .storing reason resume)
      ∨ t.run.monitor = .closing resume)
    (hstep : t.run.monitorStep input = some run) : (t.record time run (.monitor input)).Inv slack := by
  unfold monitorStep at hstep
  rcases hpc with ⟨reason, hpc | hpc⟩ | hpc
  all_goals
    simp only [hpc, record] at hstep ⊢
    cases hstep
    apply h.ofMove
  . rw [hpc]; rfl
  . simp [hpc]
  . intro other
    dsimp only
    split
    . exact resumed_not_keepAlive resume other
    . simp
  . dsimp only
    rw [hpc]
    split
    . exact positionDue_resumed
    . exact fun _ => rfl
  . rw [hpc]; rfl
  . simp [hpc]
  . simp
  . rw [hpc]
    exact fun _ => rfl
  . rw [hpc]; rfl
  . simp [hpc]
  . exact resumed_not_keepAlive resume
  . rw [hpc]
    exact positionDue_resumed

theorem Inv.monitor {input : MonitorInput} {time : Int} {run : SessionRun} (h : t.Inv slack)
    (hallows : t.allows time (.monitor input)) (hprompt : t.run.monitor = .sleeping → time ≤ t.now + slack)
    (hstep : t.run.monitorStep input = some run) : (t.record time run (.monitor input)).Inv slack := by
  cases hpc : t.run.monitor with
  | notStarted => simp [monitorStep, hpc] at hstep
  | exited => simp [monitorStep, hpc] at hstep
  | loop =>
    unfold monitorStep at hstep
    simp only [hpc, record] at hstep ⊢
    cases hstep
    apply h.ofMove
    . rw [hpc]; rfl
    . simp [hpc]
    . intro due
      dsimp only
      split <;> simp
    . intro _
      dsimp only
      rw [hpc]
      split <;> rfl
  | sleeping =>
    unfold monitorStep at hstep
    simp only [hpc, record] at hstep ⊢
    cases hstep
    exact h.read hpc hallows (hprompt hpc) rfl
  | keepAlive due => exact h.keepAliveSent hpc hstep
  | keptAlive due => exact h.keptAlive hpc hstep
  | position => exact h.positionAsked hpc hstep
  | completing reason resume => exact h.ending (.inl ⟨reason, .inl hpc⟩) hstep
  | storing reason resume => exact h.ending (.inl ⟨reason, .inr hpc⟩) hstep
  | closing resume => exact h.ending (.inr hpc) hstep

theorem Inv.startMonitor {time : Int} {run : SessionRun} (h : t.Inv slack)
    (hstep : t.run.step .startMonitor = some run) : (t.record time run .startMonitor).Inv slack := by
  simp only [SessionRun.step] at hstep
  split at hstep <;> cases hstep
  have hperiod := h.period
  have hslack := h.slack_nonneg
  refine ⟨h.period, h.slack_nonneg, fun _ => .start, fun _ => .start, fun _ => ⟨?_, ?_, ?_, ?_⟩⟩
  . intro due heq
    cases heq
  . intro _
    dsimp only [record]
    omega
  . intro hdue
    cases hdue
  . intro _
    exact le_rfl

theorem Inv.step {event : SessionEvent × Int} (h : t.Inv slack) (hprompt : t.Prompt slack event)
    (hstep : t.step event = some t') : t'.Inv slack := by
  obtain ⟨event, time⟩ := event
  simp only [TimedMonitor.step] at hstep
  split at hstep
  . next hallows =>
    obtain ⟨run, hrun, rfl⟩ := Option.map_eq_some_iff.mp hstep
    by_cases hstart : event = .startMonitor
    . rw [hstart] at hrun ⊢
      exact h.startMonitor hrun
    cases hmonitor : event.isMonitor with
    | true =>
      cases event with
      | monitor input => exact h.monitor hallows (hprompt rfl) hrun
      | _ => cases hmonitor
    | false =>
      rw [record_other hmonitor hstart]
      exact h.ofSame (othersMove_of_step hrun hmonitor hstart).monitor
  . cases hstep

/--
The keep-alives are a period apart and `slack` more at most, the first one counted from the start of the
monitor, and as long as the monitor watches the last one is no longer ago. So are the questions for the
position.
-/
structure Punctual (slack : Int) (t : TimedMonitor) : Prop where
  first : ∀ a after, t.keepAlive.fired = a :: after →
    t.started + t.period ≤ a ∧ a ≤ t.started + t.period + slack
  gap : ∀ before a b after, t.keepAlive.fired = before ++ a :: b :: after →
    a + t.period ≤ b ∧ b ≤ a + t.period + slack
  recent : t.run.monitor.isWatching → ∀ before a, t.keepAlive.fired = before ++ [a] →
    t.now ≤ a + t.period + slack
  begun : t.run.monitor.isWatching → t.keepAlive.fired = [] → t.now ≤ t.started + t.period + slack
  position : ∀ before a b after, t.position.fired = before ++ a :: b :: after →
    a + positionPeriod ≤ b ∧ b ≤ a + positionPeriod + slack

theorem Inv.now_le (h : t.Inv slack) (hwatching : t.run.monitor.isWatching)
    : t.now ≤ t.keepAlive.next + slack := by
  have hslack := h.slack_nonneg
  obtain ⟨hdue, hset, -, -⟩ := h.watching hwatching
  by_cases hpc : ∃ due, t.run.monitor = .keepAlive due
  . obtain ⟨due, hpc⟩ := hpc
    exact (hdue due hpc).2
  . have hnext := hset fun due heq => hpc ⟨due, heq⟩
    omega

theorem Inv.punctual (h : t.Inv slack) (hstarted : t.run.monitor ≠ .notStarted) : t.Punctual slack where
  first _ _ hfired := (h.keepAlive hstarted).first_fired hfired
  gap _ _ _ _ hfired := (h.keepAlive hstarted).gap hfired
  recent hwatching before a hfired := by
    have hle := h.now_le hwatching
    rwa [(h.keepAlive hstarted).next_of_last hfired] at hle
  begun hwatching hfired := by
    have hle := h.now_le hwatching
    rwa [(h.keepAlive hstarted).next_of_nil hfired] at hle
  position _ _ _ _ hfired := (h.position hstarted).gap hfired

theorem inv_create {limit : Nat} {windows : Bool} {keepAliveMs : Int} (hkeepAlive : 0 ≤ keepAliveMs)
    (hslack : 0 ≤ slack) : (create limit windows keepAliveMs).Inv slack where
  period := by
    dsimp only [create]
    omega
  slack_nonneg := hslack
  keepAlive hstarted := absurd rfl hstarted
  position hstarted := absurd rfl hstarted
  watching hwatching := by cases hwatching

theorem punctual_of_run {limit : Nat} {windows : Bool} {keepAliveMs : Int}
    {events : List (SessionEvent × Int)} (hkeepAlive : 0 ≤ keepAliveMs) (hslack : 0 ≤ slack)
    (hprompt : Machine.Meets TimedMonitor.step (Prompt slack) (create limit windows keepAliveMs) events)
    (hrun : Machine.run TimedMonitor.step (create limit windows keepAliveMs) events = some t)
    (hstarted : t.run.monitor ≠ .notStarted) : t.Punctual slack :=
  (Machine.run_invariant_of_meets (fun _ _ _ h hprompt hstep => Inv.step h hprompt hstep)
    (inv_create hkeepAlive hslack) hprompt hrun).punctual hstarted

-- Two slow rounds. The first finds both timers due, the second is late for the next keep-alive.
def slowRounds : List (SessionEvent × Int) :=
  [(.startMonitor, 0), (.monitor {}, 0), (.monitor { positionDue := true }, 200000000),
    (.monitor { position := 10 }, 0), (.monitor {}, 0),
    (.monitor { keepAliveDue := true, positionDue := true }, 1100000000), (.monitor {}, 0),
    (.monitor {}, 0), (.monitor { position := 20 }, 0), (.monitor {}, 0),
    (.monitor { positionDue := true }, 1800000000), (.monitor { position := 30 }, 0), (.monitor {}, 0),
    (.monitor { keepAliveDue := true, positionDue := true }, 2500000000), (.monitor {}, 0),
    (.monitor {}, 0), (.monitor { position := 40 }, 0)]

theorem punctual_of_run_sample
    : ∃ t, Machine.run TimedMonitor.step (create 1024 false 1000) slowRounds = some t
        ∧ t.keepAlive.fired = [1100000000, 2500000000]
        ∧ t.position.fired = [200000000, 1100000000, 1800000000, 2500000000]
        ∧ t.Punctual 900000000 :=
  ⟨_, rfl, rfl, rfl,
    @punctual_of_run _ 900000000 1024 false 1000 slowRounds (by decide) (by decide) (by decide) rfl
      (by decide)⟩

def failuresInARow (answers : List Bool) : Nat := (answers.reverse.takeWhile fun answer => !answer).length

theorem failuresInARow_failed (answers : List Bool)
    : failuresInARow (answers ++ [false]) = failuresInARow answers + 1 := by
  simp [failuresInARow]

theorem failuresInARow_succeeded (answers : List Bool) : failuresInARow (answers ++ [true]) = 0 := by
  simp [failuresInARow]

theorem exists_of_failuresInARow {answers : List Bool} (h : failuresInARow answers = 3)
    : ∃ before, answers = before ++ [false, false, false] := by
  unfold failuresInARow at h
  have hfailed : answers.reverse.takeWhile (fun answer => !answer) = List.replicate 3 false := by
    rw [List.eq_replicate_iff]
    refine ⟨h, fun answer hanswer => ?_⟩
    have hall := List.all_takeWhile (p := fun answer => !answer) (l := answers.reverse)
    simpa using List.all_eq_true.mp hall answer hanswer
  have hsplit := @List.takeWhile_append_dropWhile _ (fun answer => !answer) answers.reverse
  rw [hfailed] at hsplit
  have hanswers := congrArg List.reverse hsplit
  rw [List.reverse_append, List.reverse_reverse, List.reverse_replicate] at hanswers
  exact ⟨_, hanswers.symm⟩

def Leaving (endReason : StreamEndReason) : MonitorPc → Prop
  | .completing reason _ | .storing reason _ => reason ≠ .Active
  | .closing _ | .keptAlive _ => endReason ≠ .Active
  | .exited => True
  | _ => False

def reportsFailure : MonitorPc → Bool
  | .completing reason _ | .storing reason _ => decide (reason = .SdkKeepAliveFailed)
  | _ => false

structure Streak (t : TimedMonitor) : Prop where
  count : t.run.keepAliveFailures = failuresInARow t.answers
  le : t.run.keepAliveFailures ≤ 3
  leaving : t.run.keepAliveFailures = 3 → Leaving t.run.endReason t.run.monitor
  reason : t.run.endReason = .SdkKeepAliveFailed → t.run.keepAliveFailures = 3
  reported : reportsFailure t.run.monitor → t.run.keepAliveFailures = 3

theorem Streak.ofSame {u : TimedMonitor} (h : t.Streak) (hanswers : u.answers = t.answers)
    (hfailures : u.run.keepAliveFailures = t.run.keepAliveFailures)
    (hreason : u.run.endReason = t.run.endReason ∨ u.run.endReason = .QueueOverflow)
    (hleaving : Leaving t.run.endReason t.run.monitor → Leaving u.run.endReason u.run.monitor)
    (hreports : reportsFailure u.run.monitor → reportsFailure t.run.monitor) : u.Streak where
  count := by rw [hfailures, hanswers, h.count]
  le := by rw [hfailures]; exact h.le
  leaving hthree := hleaving (h.leaving (hfailures.symm.trans hthree))
  reason hend := by
    rw [hfailures]
    rcases hreason with hreason | hreason
    . exact h.reason (hreason.symm.trans hend)
    . cases hreason.symm.trans hend
  reported hpc := hfailures.trans (h.reported (hreports hpc))

theorem Leaving.resumed {endReason : StreamEndReason} {resume : Option Bool} (h : endReason ≠ .Active)
    : Leaving endReason (.resumed resume) := by
  cases resume with
  | none => trivial
  | some due => exact h

theorem reportsFailure_resumed (resume : Option Bool) : reportsFailure (.resumed resume) = false := by
  cases resume <;> rfl

theorem Leaving.overflow {pc : MonitorPc} {endReason endReason' : StreamEndReason}
    (h : Leaving endReason pc) (hreason : endReason' = endReason ∨ endReason' = .QueueOverflow)
    : Leaving endReason' pc := by
  rcases hreason with rfl | rfl
  . exact h
  . cases pc <;> first | exact h | simp [Leaving]

theorem Streak.keepAlive {input : MonitorInput} {time : Int} {run : SessionRun} {due : Bool} (h : t.Streak)
    (hpc : t.run.monitor = .keepAlive due) (hstep : t.run.monitorStep input = some run)
    : (t.record time run (.monitor input)).Streak := by
  -- three failures would have ended the monitor
  have hless : t.run.keepAliveFailures < 3 := by
    apply lt_of_le_of_ne h.le
    intro hthree
    have hleaving := h.leaving hthree
    rw [hpc] at hleaving
    exact hleaving
  have hnot : t.run.endReason ≠ .SdkKeepAliveFailed := by
    intro hend
    have hthree := h.reason hend
    omega
  unfold monitorStep at hstep
  simp only [hpc, record] at hstep ⊢
  split at hstep
  . next hok =>
    cases hstep
    rw [hok]
    exact ⟨(failuresInARow_succeeded _).symm, by simp, by simp, fun hend => absurd hend hnot,
      fun hreports => by cases hreports⟩
  . next hfailed =>
    rw [Bool.eq_false_of_not_eq_true hfailed]
    cases hstep
    refine ⟨?_, ?_, ?_, fun hend => absurd hend hnot, ?_⟩
    . dsimp only
      rw [failuresInARow_failed, h.count]
    . dsimp only
      omega
    . dsimp only
      intro hthree
      rw [if_pos hthree.ge]
      simp [Leaving]
    . dsimp only
      split
      . intro _
        omega
      . intro hreports
        cases hreports

theorem Streak.ending {input : MonitorInput} {time : Int} {run : SessionRun} {resume : Option Bool}
    (h : t.Streak)
    (hpc : (∃ reason, t.run.monitor = .completing reason resume ∨ t.run.monitor = .storing reason resume)
      ∨ t.run.monitor = .closing resume)
    (hstep : t.run.monitorStep input = some run) : (t.record time run (.monitor input)).Streak := by
  unfold monitorStep at hstep
  rcases hpc with ⟨reason, hpc | hpc⟩ | hpc
  . simp only [hpc, record] at hstep ⊢
    cases hstep
    refine h.ofSame rfl rfl (.inl rfl) ?_ ?_
    . rw [hpc]
      intro hended
      dsimp only
      split
      . next hreason => exact .resumed hreason
      . exact hended
    . rw [hpc]
      dsimp only
      split
      . rw [reportsFailure_resumed]
        exact fun hreports => by cases hreports
      . exact id
  . have hleaving := h.leaving
    have hreported := h.reported
    rw [hpc] at hleaving hreported
    simp only [hpc, record] at hstep ⊢
    cases hstep
    refine ⟨h.count, h.le, fun hthree => hleaving hthree, ?_, fun hreports => by cases hreports⟩
    intro hend
    exact hreported (decide_eq_true hend)
  . simp only [hpc, record] at hstep ⊢
    cases hstep
    refine h.ofSame rfl rfl (.inl rfl) ?_ ?_
    . rw [hpc]
      exact .resumed
    . dsimp only
      rw [reportsFailure_resumed]
      exact fun hreports => by cases hreports

theorem Streak.round {input : MonitorInput} {time : Int} {run : SessionRun} (h : t.Streak)
    (hpc : t.run.monitor = .loop ∨ t.run.monitor = .sleeping ∨ t.run.monitor = .position)
    (hstep : t.run.monitorStep input = some run) : (t.record time run (.monitor input)).Streak := by
  unfold monitorStep at hstep
  rcases hpc with hpc | hpc | hpc
  all_goals
    simp only [hpc, record] at hstep ⊢
    cases hstep
    refine h.ofSame rfl rfl (.inl rfl) (by rw [hpc]; exact False.elim) ?_
    dsimp only
  . split <;> exact fun hreports => by cases hreports
  . split
    . exact fun hreports => by cases hreports
    . split <;> exact fun hreports => by cases hreports
  . split
    . exact fun hreports => by cases hreports
    . split <;> exact fun hreports => by cases hreports

theorem Streak.keptAlive {input : MonitorInput} {time : Int} {run : SessionRun} {due : Bool} (h : t.Streak)
    (hpc : t.run.monitor = .keptAlive due) (hstep : t.run.monitorStep input = some run)
    : (t.record time run (.monitor input)).Streak := by
  unfold monitorStep at hstep
  simp only [hpc, record] at hstep ⊢
  cases hstep
  refine h.ofSame rfl rfl (.inl rfl) ?_ ?_
  . rw [hpc]
    intro hended
    dsimp only
    rw [if_pos (show t.run.endReason ≠ .Active from hended)]
    trivial
  . dsimp only
    split
    . exact fun hreports => by cases hreports
    . split <;> exact fun hreports => by cases hreports

theorem Streak.monitor {input : MonitorInput} {time : Int} {run : SessionRun} (h : t.Streak)
    (hstep : t.run.monitorStep input = some run) : (t.record time run (.monitor input)).Streak := by
  cases hpc : t.run.monitor with
  | notStarted => simp [monitorStep, hpc] at hstep
  | exited => simp [monitorStep, hpc] at hstep
  | loop => exact h.round (.inl hpc) hstep
  | sleeping => exact h.round (.inr (.inl hpc)) hstep
  | keepAlive due => exact h.keepAlive hpc hstep
  | keptAlive due => exact h.keptAlive hpc hstep
  | position => exact h.round (.inr (.inr hpc)) hstep
  | completing reason resume => exact h.ending (.inl ⟨reason, .inl hpc⟩) hstep
  | storing reason resume => exact h.ending (.inl ⟨reason, .inr hpc⟩) hstep
  | closing resume => exact h.ending (.inr hpc) hstep

theorem Streak.step {event : SessionEvent × Int} (h : t.Streak) (hstep : t.step event = some t')
    : t'.Streak := by
  obtain ⟨event, time⟩ := event
  simp only [TimedMonitor.step] at hstep
  split at hstep <;> try cases hstep
  obtain ⟨run, hrun, rfl⟩ := Option.map_eq_some_iff.mp hstep
  by_cases hstart : event = .startMonitor
  . rw [hstart] at hrun ⊢
    simp only [SessionRun.step] at hrun
    split at hrun <;> cases hrun
    next hfirst =>
      refine h.ofSame rfl rfl (.inl rfl) ?_ fun hreports => by cases hreports
      rw [hfirst.1]
      exact False.elim
  cases hmonitor : event.isMonitor with
  | true =>
    cases event with
    | monitor input => exact h.monitor hrun
    | _ => cases hmonitor
  | false =>
    rw [record_other hmonitor hstart]
    obtain ⟨hsame, hfailures, hreason⟩ := othersMove_of_step hrun hmonitor hstart
    refine h.ofSame rfl hfailures hreason ?_ ?_
    . dsimp only
      rw [hsame]
      exact fun hleaving => hleaving.overflow hreason
    . dsimp only
      rw [hsame]
      exact id

/--
A session ends because the keep-alives fail only when the last three have failed, and a monitor that
goes on never has three failures behind it.
-/
theorem three_failures_of_run {limit : Nat} {windows : Bool} {keepAliveMs : Int}
    {events : List (SessionEvent × Int)}
    (hrun : Machine.run TimedMonitor.step (create limit windows keepAliveMs) events = some t)
    : (t.run.endReason = .SdkKeepAliveFailed → ∃ before, t.answers = before ++ [false, false, false])
        ∧ (t.run.monitor = .sleeping → failuresInARow t.answers < 3) := by
  have hstreak : t.Streak :=
    Machine.run_invariant (fun _ _ _ h hstep => Streak.step h hstep)
      ⟨rfl, by simp [create, SessionRun.start], by simp [create, SessionRun.start],
        by simp [create, SessionRun.start], by simp [create, SessionRun.start, reportsFailure]⟩ hrun
  have hcount := hstreak.count
  refine ⟨fun hend => exists_of_failuresInARow (hcount.symm.trans (hstreak.reason hend)), ?_⟩
  intro hsleeping
  rw [← hcount]
  apply lt_of_le_of_ne hstreak.le
  intro hthree
  have hleaving := hstreak.leaving hthree
  rw [hsleeping] at hleaving
  exact hleaving

def failedRound (time : Int) : List (SessionEvent × Int) :=
  [(.monitor {}, 0), (.monitor { keepAliveDue := true, positionDue := true }, time),
    (.monitor { keptAlive := false }, 0), (.monitor {}, 0), (.monitor {}, 0)]

def failedRounds : List (SessionEvent × Int) :=
  [(.startMonitor, 0)] ++ failedRound 1000000000 ++ failedRound 2000000000 ++ failedRound 3000000000

theorem three_failures_of_run_sample
    : ∃ t, Machine.run TimedMonitor.step (create 1024 false 1000) failedRounds = some t
        ∧ t.run.endReason = .SdkKeepAliveFailed
        ∧ ∃ before, t.answers = before ++ [false, false, false] :=
  ⟨_, rfl, rfl,
    (@three_failures_of_run _ 1024 false 1000 failedRounds rfl).1 rfl⟩

end TimedMonitor
end HikBridge
