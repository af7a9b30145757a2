import HikBridge.Video.Socket

/-!
This module contains what the socket of the browser may do with a text, round by round, and that the loop
of `write_socket_all` stops short exactly where this schedule says so.
-/

namespace HikBridge

def PollAnswer.passes (windows : Bool) (answer : PollAnswer) : Bool :=
  match answer with
  | .nothing => true
  | .failed error => !windows && error == .interrupted
  | .broken => false
  | .readable count error =>
    count != 0 && (!(count < 0 && error != .wouldBlock) || (!windows && error == .interrupted))

-- `send` would block.
def Tick.Blocked (sent : Tick) : Prop := sent.count < 0 ∧ sent.error = .wouldBlock

-- `send` was interrupted by a signal, which only other systems than Windows know.
def Tick.Signalled (windows : Bool) (sent : Tick) : Prop :=
  sent.count < 0 ∧ sent.error = .interrupted ∧ windows = false

inductive SendStep (windows : Bool) : List Tick → Nat → Prop where
  | takes {running sent : Tick} (hcount : 0 < sent.count)
    : SendStep windows [running, sent] (min sent.count.toNat (64 * 1024))
  | waits {running sent check poll clock : Tick} (hsent : sent.Blocked)
      (hpoll : poll.poll.passes windows = true) (hclock : clock.late = false)
    : SendStep windows [running, sent, check, poll, clock] 0
  | retries {running sent : Tick} (hsent : sent.Signalled windows) : SendStep windows [running, sent] 0

inductive SendEnd (windows : Bool) : List Tick → Exn → Prop where
  | timesOut {running sent check poll clock : Tick} (hsent : sent.Blocked)
      (hpoll : poll.poll.passes windows = true) (hclock : clock.late = true)
    : SendEnd windows [running, sent, check, poll, clock] (.bridge Client.clientWriteTimeout)
  | gone {running sent check poll : Tick} (hsent : sent.Blocked) (hpoll : poll.poll.passes windows = false)
    : SendEnd windows [running, sent, check, poll] .clientDisconnected
  | refused {running sent : Tick} (hcount : ¬ 0 < sent.count) (hblocked : ¬ sent.Blocked)
      (hsignalled : ¬ sent.Signalled windows)
    : SendEnd windows [running, sent] .clientDisconnected

inductive Sending (windows : Bool) : Nat → List Tick → Nat → Prop where
  | nil {left : Nat} : Sending windows left [] left
  | step {left left' taken : Nat} {round rounds : List Tick} (hleft : 0 < left)
      (hround : SendStep windows round taken) (h : Sending windows (left - taken) rounds left')
    : Sending windows left (round ++ rounds) left'

-- The server runs on meanwhile.
def Undisturbed (ticks : List Tick) : Prop := ∀ tick ∈ ticks, tick.shutdown = false

/--
The socket takes some bytes of a text, but not all of them, before a round ends the transmission.
-/
def CutShort (windows : Bool) (size : Nat) (exn : Exn) (ticks rest : List Tick) : Prop :=
  ∃ rounds last left, ticks = rounds ++ (last ++ rest) ∧ Sending windows size rounds left
    ∧ SendEnd windows last exn ∧ 0 < left ∧ left < size ∧ Undisturbed rounds ∧ Undisturbed last

theorem CutShort.exn_eq {windows : Bool} {size : Nat} {exn : Exn} {ticks rest : List Tick}
    (h : CutShort windows size exn ticks rest)
    : exn = .bridge Client.clientWriteTimeout ∨ exn = .clientDisconnected := by
  obtain ⟨_, _, _, _, _, hend, _⟩ := h
  cases hend with
  | timesOut => exact .inl rfl
  | gone => exact .inr rfl
  | refused => exact .inr rfl

theorem undisturbed_nil : Undisturbed [] := fun _ hmem => absurd hmem List.not_mem_nil

theorem undisturbed_cons {tick : Tick} {ticks : List Tick} (htick : tick.shutdown = false)
    (h : Undisturbed ticks) : Undisturbed (tick :: ticks) := by
  intro other hmem
  cases List.mem_cons.mp hmem with
  | inl heq => rw [heq, htick]
  | inr hmem => exact h other hmem

theorem undisturbed_append {ticks ticks' : List Tick} (h : Undisturbed ticks) (h' : Undisturbed ticks')
    : Undisturbed (ticks ++ ticks') := by
  intro tick hmem
  cases List.mem_append.mp hmem with
  | inl hmem => exact h tick hmem
  | inr hmem => exact h' tick hmem

theorem advance_running {env : Env} {tick : Tick} (h : (env.advance tick).running = true)
    : env.running = true ∧ tick.shutdown = false := by
  simpa [Env.advance] using h

def Env.after (env : Env) (ticks : List Tick) : Env := ticks.foldl Env.advance env

theorem undisturbed_of_after {env : Env} {ticks : List Tick} (h : (env.after ticks).running = true)
    : env.running = true ∧ Undisturbed ticks := by
  induction ticks generalizing env with
  | nil => exact ⟨h, undisturbed_nil⟩
  | cons tick ticks ih =>
    obtain ⟨hadvanced, hticks⟩ := ih h
    exact ⟨(advance_running hadvanced).1, undisturbed_cons (advance_running hadvanced).2 hticks⟩

theorem after_running {env : Env} {ticks : List Tick} (h : env.running = true) (hticks : Undisturbed ticks)
    : (env.after ticks).running = true := by
  induction ticks generalizing env with
  | nil => exact h
  | cons tick ticks ih =>
    apply ih
    . simp [Env.advance, h, hticks tick List.mem_cons_self]
    . exact fun other hmem => hticks other (List.mem_cons_of_mem tick hmem)

theorem Undisturbed.start {ticks ticks' : List Tick} (h : Undisturbed ticks') (hstart : ticks <+: ticks')
    : Undisturbed ticks :=
  fun tick hmem => h tick (hstart.mem hmem)

theorem SendStep.length_pos {windows : Bool} {round : List Tick} {taken : Nat} (h : SendStep windows round taken)
    : 0 < round.length := by
  cases h with
  | takes => simp
  | waits => simp
  | retries => simp

namespace Client

variable {v : Setting} {ts us : List Tick} {client client' : Client} {text : Bytes}

def advance (client : Client) (tick : Tick) : Client := { client with env := client.env.advance tick }

theorem onEnv_observe (tick : Tick) (ts : List Tick) : onEnv observe client (tick :: ts) = (.ok tick, client.advance tick, ts) :=
  rfl

theorem onEnv_isRunning (tick : Tick) (ts : List Tick)
    : onEnv isRunning client (tick :: ts)
        = (.ok (client.advance tick).env.running, client.advance tick, ts) :=
  rfl

theorem checkVideoClient_pass {env : Env} {check poll : Tick}
    (hrunning : (env.advance check).running = true)
    : checkVideoClient v env (check :: poll :: ts)
        = (if poll.poll.passes v.windows then .ok () else .error .clientDisconnected,
            (env.advance check).advance poll, ts) := by
  have hstart : isRunning env (check :: poll :: ts)
      = (.ok (env.advance check).running, env.advance check, poll :: ts) := rfl
  have hpoll : observe (env.advance check) (poll :: ts)
      = (.ok poll, (env.advance check).advance poll, ts) := rfl
  unfold checkVideoClient
  rw [Program.bind_ok hstart, hrunning]
  show (observe >>= _ : Program Env Tick Exn Unit) (env.advance check) (poll :: ts) = _
  rw [Program.bind_ok hpoll]
  unfold PollAnswer.passes
  cases poll.poll with
  | nothing => rfl
  | broken => rfl
  | failed error =>
    cases v.windows <;> cases error <;> rfl
  | readable count error =>
    by_cases hzero : count = 0
    . simp [hzero]
      rfl
    . cases v.windows <;> cases error <;> by_cases hneg : count < 0 <;> simp [hzero, hneg] <;> rfl

def RoundEnds (windows : Bool) (rest : Bytes) (client client' : Client) (ts us : List Tick)
    : Outcome Exn (Bytes ⊕ Bool) → Prop
  | .ok (.inl rest') => ∃ round taken, ts = round ++ us ∧ SendStep windows round taken ∧ Undisturbed round
      ∧ rest'.length = rest.length - taken
      ∧ client'.wire.length + rest'.length = client.wire.length + rest.length
  | .ok (.inr ok) => ok = false ∧ client'.wire = client.wire
      ∧ ∃ last, ts = last ++ us ∧ SendEnd windows last .clientDisconnected ∧ Undisturbed last
  | .error exn => client'.wire = client.wire
      ∧ ∃ last, ts = last ++ us ∧ SendEnd windows last exn ∧ Undisturbed last
  | .cut => True

theorem of_advance {tick : Tick} (h : (client.advance tick).env.running = true)
    : client.env.running = true ∧ tick.shutdown = false :=
  advance_running h

-- The part of a round that follows a `send` that would block.
def awaitSocket (v : Setting) (rest : Bytes) : Program Client Tick Exn (Bytes ⊕ Bool) := do
  onEnv (checkVideoClient v)
  let clock ← onEnv observe
  if clock.late then
    Program.raise (.bridge clientWriteTimeout)
  else
    pure (.inl rest)

theorem awaitSocket_eq {rest : Bytes} {check poll : Tick} (hcheck : (client.advance check).env.running = true)
    : awaitSocket v rest client (check :: poll :: ts)
        = (if poll.poll.passes v.windows then
            (do
              let clock ← onEnv observe
              if clock.late then Program.raise (.bridge clientWriteTimeout) else pure (.inl rest)
              : Program Client Tick Exn (Bytes ⊕ Bool))
                ((client.advance check).advance poll) ts
          else (.error .clientDisconnected, (client.advance check).advance poll, ts)) := by
  have hpass : onEnv (checkVideoClient v) client (check :: poll :: ts)
      = (if poll.poll.passes v.windows then .ok () else .error .clientDisconnected,
        (client.advance check).advance poll, ts) := by
    unfold onEnv Program.zoom
    rw [show envPart.get client = client.env from rfl, checkVideoClient_pass hcheck]
    rfl
  unfold awaitSocket
  split
  . next hpasses =>
    rw [if_pos hpasses] at hpass
    exact Program.bind_ok hpass
  . next hpasses =>
    rw [if_neg hpasses] at hpass
    exact Program.bind_error hpass

theorem awaitSocket_stopped {rest : Bytes} {check : Tick}
    (hcheck : (client.advance check).env.running = false)
    : awaitSocket v rest client (check :: ts) = (.error .clientDisconnected, client.advance check, ts) := by
  have hstopped : onEnv (checkVideoClient v) client (check :: ts)
      = (.error .clientDisconnected, client.advance check, ts) := by
    have hrunning : isRunning client.env (check :: ts) = (.ok false, (client.advance check).env, ts) := by
      rw [← hcheck]
      rfl
    unfold onEnv Program.zoom checkVideoClient
    rw [show envPart.get client = client.env from rfl, Program.bind_ok hrunning]
    rfl
  exact Program.bind_error hstopped

theorem awaitSocket_cut {rest : Bytes} {check : Tick} (hcheck : (client.advance check).env.running = true)
    : awaitSocket v rest client [check] = (.cut, client.advance check, []) := by
  have hcut : onEnv (checkVideoClient v) client [check] = (.cut, client.advance check, []) := by
    have hrunning : isRunning client.env [check] = (.ok true, (client.advance check).env, []) := by
      rw [← hcheck]
      rfl
    unfold onEnv Program.zoom checkVideoClient
    rw [show envPart.get client = client.env from rfl, Program.bind_ok hrunning]
    rfl
  exact Program.bind_cut hcut

def after (client : Client) (ticks : List Tick) : Client := { client with env := client.env.after ticks }

theorem writeRound_eq {rest : Bytes} {running sent : Tick} (hrest : rest ≠ [])
    (hrun : (client.advance running).env.running = true)
    : writeRound v rest client (running :: sent :: ts)
        =
      if 0 < sent.count then
        let size := min sent.count.toNat (min rest.length (64 * 1024))
        (.ok (.inl (rest.drop size)),
          { client.after [running, sent] with wire := client.wire ++ rest.take size }, ts)
      else if sent.count < 0 ∧ sent.error = .wouldBlock then
        awaitSocket v rest (client.after [running, sent]) ts
      else if sent.count < 0 ∧ sent.error = .interrupted ∧ !v.windows then
        (.ok (.inl rest), client.after [running, sent], ts)
      else
        (.ok (.inr false), client.after [running, sent], ts) := by
  have hsend : ∀ f : Tick → Program Client Tick Exn (Bytes ⊕ Bool),
      (onEnv observe >>= f) (client.advance running) (sent :: ts) = f sent (client.after [running, sent]) ts :=
    fun _ => Program.bind_ok (onEnv_observe sent _)
  unfold writeRound
  rw [if_neg hrest, Program.bind_ok (onEnv_isRunning running _), hrun]
  refine (hsend _).trans ?_
  split
  . rfl
  . split
    . rfl
    . split
      . rfl
      . rfl

theorem roundEnds_blocked {rest : Bytes} {outcome : Outcome Exn (Bytes ⊕ Bool)} {running sent : Tick}
    (hsent : sent.Blocked)
    (h : awaitSocket v rest (client.after [running, sent]) ts = (outcome, client', us))
    (hrunning : client'.env.running = true)
    : client.env.running = true
        ∧ RoundEnds v.windows rest client client' (running :: sent :: ts) us outcome := by
  rcases ts with _ | ⟨check, ts⟩
  . cases h
    exact ⟨(undisturbed_of_after hrunning).1, trivial⟩
  cases hcheck : ((client.after [running, sent]).advance check).env.running with
  | false =>
    rw [awaitSocket_stopped hcheck] at h
    cases h
    rw [hcheck] at hrunning
    cases hrunning
  | true =>
    rcases ts with _ | ⟨poll, ts⟩
    . rw [awaitSocket_cut hcheck] at h
      cases h
      have hrun : (client.after [running, sent, check]).env.running = true := hrunning
      exact ⟨(undisturbed_of_after hrun).1, trivial⟩
    rw [awaitSocket_eq hcheck] at h
    split at h
    . next hpoll =>
      rcases ts with _ | ⟨clock, ts⟩
      . cases h
        have hrun : (client.after [running, sent, check, poll]).env.running = true := hrunning
        exact ⟨(undisturbed_of_after hrun).1, trivial⟩
      . replace h := (Program.bind_ok (onEnv_observe clock ts)).symm.trans h
        split at h
        . next hlate =>
          cases h
          have hrun : (client.after [running, sent, check, poll, clock]).env.running = true := hrunning
          obtain ⟨hclient, hticks⟩ := undisturbed_of_after hrun
          exact ⟨hclient, rfl, _, rfl, .timesOut hsent hpoll hlate, hticks⟩
        . next hlate =>
          cases h
          have hrun : (client.after [running, sent, check, poll, clock]).env.running = true := hrunning
          obtain ⟨hclient, hticks⟩ := undisturbed_of_after hrun
          exact ⟨hclient, _, 0, rfl, .waits hsent hpoll (by simpa using hlate), hticks, rfl, rfl⟩
    . next hpoll =>
      cases h
      have hrun : (client.after [running, sent, check, poll]).env.running = true := hrunning
      obtain ⟨hclient, hticks⟩ := undisturbed_of_after hrun
      exact ⟨hclient, rfl, _, rfl, .gone hsent (by simpa using hpoll), hticks⟩

theorem roundEnds_writeRound {rest : Bytes} (hrest : rest ≠ []) {outcome : Outcome Exn (Bytes ⊕ Bool)}
    (h : writeRound v rest client ts = (outcome, client', us)) (hrunning : client'.env.running = true)
    : client.env.running = true ∧ RoundEnds v.windows rest client client' ts us outcome := by
  rcases ts with _ | ⟨running, ts⟩
  . rw [writeRound, if_neg hrest] at h
    cases h
    exact ⟨hrunning, trivial⟩
  cases hrun : (client.advance running).env.running with
  | false =>
    rw [writeRound, if_neg hrest, Program.bind_ok (onEnv_isRunning running ts), hrun] at h
    cases h
    rw [hrun] at hrunning
    cases hrunning
  | true =>
    rcases ts with _ | ⟨sent, ts⟩
    . rw [writeRound, if_neg hrest, Program.bind_ok (onEnv_isRunning running []), hrun] at h
      cases h
      exact ⟨(of_advance hrunning).1, trivial⟩
    rw [writeRound_eq hrest hrun] at h
    split at h
    . next hcount =>
      cases h
      have hrun : (client.after [running, sent]).env.running = true := hrunning
      obtain ⟨hclient, hticks⟩ := undisturbed_of_after hrun
      refine ⟨hclient, _, _, rfl, .takes hcount, hticks, ?_, ?_⟩
      . rw [List.length_drop]
        omega
      . simp
    . next hcount =>
      split at h
      . next hsent => exact roundEnds_blocked hsent h hrunning
      . next hblocked =>
        split at h
        . next hsignalled =>
          cases h
          have hrun : (client.after [running, sent]).env.running = true := hrunning
          obtain ⟨hclient, hticks⟩ := undisturbed_of_after hrun
          refine ⟨hclient, _, 0, rfl, .retries ⟨hsignalled.1, hsignalled.2.1, ?_⟩, hticks, rfl, rfl⟩
          simpa using hsignalled.2.2
        . next hsignalled =>
          cases h
          have hrun : (client.after [running, sent]).env.running = true := hrunning
          obtain ⟨hclient, hticks⟩ := undisturbed_of_after hrun
          refine ⟨hclient, rfl, rfl, _, rfl, .refused hcount hblocked ?_, hticks⟩
          exact fun hsignal => hsignalled ⟨hsignal.1, hsignal.2.1, by simp [hsignal.2.2]⟩

-- How `send_text` fails with what the loop has ended with.
def failure : Outcome Exn Bool → Option Exn
  | .ok true => none
  | .ok false => some .clientDisconnected
  | .error exn => some exn
  | .cut => none

theorem closes_iterateFuel {fuel : Nat} {rest : Bytes} {outcome : Outcome Exn Bool} {exn : Exn}
    (h : Program.iterateFuel (writeRound v) fuel rest client ts = (outcome, client', us))
    (hexn : failure outcome = some exn) (hrunning : client'.env.running = true)
    : client.env.running = true ∧ ∃ rounds last left, ts = rounds ++ (last ++ us)
        ∧ Sending v.windows rest.length rounds left ∧ SendEnd v.windows last exn ∧ 0 < left
        ∧ client'.wire.length + left = client.wire.length + rest.length
        ∧ Undisturbed rounds ∧ Undisturbed last := by
  induction fuel generalizing rest client ts with
  | zero =>
    cases h
    cases hexn
  | succ fuel ih =>
    by_cases hrest : rest = []
    . rw [hrest] at h
      cases h
      cases hexn
    have hleft : 0 < rest.length := List.length_pos_iff.mpr hrest
    rcases hround : writeRound v rest client ts with ⟨(rest' | ok) | exn' | _, client₁, ts₁⟩
    . rw [Program.iterateFuel_again hround] at h
      obtain ⟨hrunning₁, rounds, last, left, rfl, hsending, hend, hpositive, hwire, hrounds, hlast⟩ := ih h
      obtain ⟨hclient, round, taken, rfl, hstep, hticks, hlength, hwire₁⟩ :=
        roundEnds_writeRound hrest hround hrunning₁
      rw [hlength] at hsending
      refine ⟨hclient, round ++ rounds, last, left, (List.append_assoc _ _ _).symm,
        .step hleft hstep hsending, hend, hpositive, by omega, undisturbed_append hticks hrounds, hlast⟩
    . rw [Program.iterateFuel_done hround] at h
      cases h
      obtain ⟨hclient, rfl, hwire, last, rfl, hend, hlast⟩ := roundEnds_writeRound hrest hround hrunning
      cases hexn
      exact ⟨hclient, [], last, rest.length, rfl, .nil, hend, hleft, by rw [hwire], undisturbed_nil, hlast⟩
    . rw [show Program.iterateFuel (writeRound v) (fuel + 1) rest client ts = _ from
        Program.bind_error hround] at h
      cases h
      obtain ⟨hclient, hwire, last, rfl, hend, hlast⟩ := roundEnds_writeRound hrest hround hrunning
      cases hexn
      exact ⟨hclient, [], last, rest.length, rfl, .nil, hend, hleft, by rw [hwire], undisturbed_nil, hlast⟩
    . rw [Program.iterateFuel_cut hround] at h
      cases h
      cases hexn

theorem cutShort_of_sendText {exn : Exn} (h : sendText v text client ts = (.error exn, client', us))
    (hempty : client.wire = []) (hpart : client'.wire ≠ []) (hrunning : client'.env.running = true)
    : client.env.running = true ∧ CutShort v.windows text.length exn ts us := by
  have hloop : ∃ outcome, writeSocketAll v text client ts = (outcome, client', us)
      ∧ failure outcome = some exn := by
    unfold sendText at h
    rcases hrun : writeSocketAll v text client ts with ⟨ok | exn' | _, client₁, ts₁⟩
    . rw [Program.bind_ok hrun] at h
      cases ok with
      | true => cases h
      | false =>
        cases h
        exact ⟨_, rfl, rfl⟩
    . rw [Program.bind_error hrun] at h
      cases h
      exact ⟨_, rfl, rfl⟩
    . rw [Program.bind_cut hrun] at h
      cases h
  obtain ⟨outcome, hloop, hexn⟩ := hloop
  obtain ⟨hclient, rounds, last, left, hticks, hsending, hend, hleft, hwire, hrounds, hlast⟩ :=
    closes_iterateFuel hloop hexn hrunning
  have hlength := List.length_pos_iff.mpr hpart
  rw [hempty, List.length_nil] at hwire
  exact ⟨hclient, rounds, last, left, hticks, hsending, hend, hleft, by omega, hrounds, hlast⟩

section Forward

variable {rest : Bytes}

theorem after_running {ticks : List Tick} (h : client.env.running = true) (hticks : Undisturbed ticks)
    : (client.after ticks).env.running = true :=
  HikBridge.after_running h hticks

theorem running_of_undisturbed {tick : Tick} {ticks : List Tick} (h : Undisturbed (tick :: ticks))
    (hrunning : client.env.running = true) : (client.advance tick).env.running = true :=
  have hstart : Undisturbed [tick] := h.start ⟨ticks, rfl⟩
  after_running hrunning hstart

theorem writeRound_blocked {running sent check poll : Tick} (hrest : rest ≠ []) (hsent : sent.Blocked)
    (hrunning : client.env.running = true) (hticks : Undisturbed [running, sent, check, poll])
    : writeRound v rest client (running :: sent :: check :: poll :: ts)
        =
      if poll.poll.passes v.windows then
        (do
          let clock ← onEnv observe
          if clock.late then Program.raise (.bridge clientWriteTimeout) else pure (.inl rest)
          : Program Client Tick Exn (Bytes ⊕ Bool)) (client.after [running, sent, check, poll]) ts
      else
        (.error .clientDisconnected, client.after [running, sent, check, poll], ts) := by
  have hcheck : (client.after [running, sent, check]).env.running = true :=
    after_running hrunning (hticks.start ⟨[poll], rfl⟩)
  have hrun : (client.advance running).env.running = true :=
    running_of_undisturbed hticks hrunning
  rw [writeRound_eq hrest hrun, if_neg (by have := hsent.1; omega), if_pos ⟨hsent.1, hsent.2⟩]
  exact awaitSocket_eq hcheck

theorem writeRound_of_step (us : List Tick) {round : List Tick} {taken : Nat} (hrest : rest ≠ [])
    (hstep : SendStep v.windows round taken) (hrunning : client.env.running = true) (hround : Undisturbed round)
    : ∃ rest' client', writeRound v rest client (round ++ us) = (.ok (.inl rest'), client', us)
        ∧ client'.env.running = true ∧ rest'.length = rest.length - taken
        ∧ client'.wire.length + rest'.length = client.wire.length + rest.length := by
  have hafter := after_running hrunning hround
  cases hstep with
  | @takes running sent hcount =>
    have hrun : (client.advance running).env.running = true :=
      running_of_undisturbed hround hrunning
    refine ⟨_, _, (writeRound_eq hrest hrun).trans (if_pos hcount), hafter, ?_, ?_⟩
    . rw [List.length_drop]
      omega
    . simp
  | @waits running sent check poll clock hsent hpoll hclock =>
    refine ⟨rest, client.after [running, sent, check, poll, clock], ?_, hafter, rfl, rfl⟩
    refine (writeRound_blocked hrest hsent hrunning (hround.start ⟨[clock], rfl⟩)).trans ?_
    rw [if_pos hpoll]
    refine (Program.bind_ok (onEnv_observe clock _)).trans ?_
    rw [if_neg (by simp [hclock])]
    rfl
  | @retries running sent hsent =>
    have hrun : (client.advance running).env.running = true :=
      running_of_undisturbed hround hrunning
    refine ⟨rest, client.after [running, sent], ?_, hafter, rfl, rfl⟩
    refine (writeRound_eq hrest hrun).trans ?_
    rw [if_neg (by have := hsent.1; omega), if_neg (by simp [hsent.2.1]),
      if_pos ⟨hsent.1, hsent.2.1, by simp [hsent.2.2]⟩]
    rfl

theorem writeRound_of_end (us : List Tick) {last : List Tick} {exn : Exn} (hrest : rest ≠ [])
    (hend : SendEnd v.windows last exn) (hrunning : client.env.running = true) (hlast : Undisturbed last)
    : writeRound v rest client (last ++ us) = (.error exn, client.after last, us)
        ∨ (exn = .clientDisconnected
          ∧ writeRound v rest client (last ++ us) = (.ok (.inr false), client.after last, us)) := by
  cases hend with
  | @timesOut running sent check poll clock hsent hpoll hclock =>
    left
    refine (writeRound_blocked hrest hsent hrunning (hlast.start ⟨[clock], rfl⟩)).trans ?_
    rw [if_pos hpoll]
    refine (Program.bind_ok (onEnv_observe clock _)).trans ?_
    rw [if_pos hclock]
    rfl
  | @gone running sent check poll hsent hpoll =>
    left
    refine (writeRound_blocked hrest hsent hrunning hlast).trans ?_
    rw [if_neg (by simp [hpoll])]
    rfl
  | @refused running sent hcount hblocked hsignalled =>
    have hrun : (client.advance running).env.running = true :=
      running_of_undisturbed hlast hrunning
    refine .inr ⟨rfl, (writeRound_eq hrest hrun).trans ?_⟩
    rw [if_neg hcount, if_neg fun h => hblocked ⟨h.1, h.2⟩,
      if_neg fun h => hsignalled ⟨h.1, h.2.1, by simpa using h.2.2⟩]
    rfl

theorem iterateFuel_of_sending (us : List Tick) {left left' : Nat} {rounds last : List Tick} {exn : Exn}
    (hsending : Sending v.windows left rounds left') (hend : SendEnd v.windows last exn) (hleft' : 0 < left')
    (hrounds : Undisturbed rounds) (hlast : Undisturbed last) {fuel : Nat} (hfuel : rounds.length < fuel)
    (hrunning : client.env.running = true) (hlength : rest.length = left)
    : ∃ outcome client', Program.iterateFuel (writeRound v) fuel rest client (rounds ++ (last ++ us))
          = (outcome, client', us)
        ∧ failure outcome = some exn ∧ client'.env.running = true
        ∧ client'.wire.length + left' = client.wire.length + rest.length := by
  induction hsending generalizing rest client fuel with
  | nil =>
    have hrest : rest ≠ [] := List.length_pos_iff.mp (by omega)
    obtain ⟨fuel, rfl⟩ := Nat.exists_eq_add_of_lt hfuel
    have hafter := after_running hrunning hlast
    rcases writeRound_of_end us hrest hend hrunning hlast with hround | ⟨rfl, hround⟩
    . exact ⟨.error exn, _, Program.bind_error hround, rfl, hafter, by rw [hlength]; rfl⟩
    . exact ⟨.ok false, _, Program.iterateFuel_done hround, rfl, hafter, by rw [hlength]; rfl⟩
  | @step left left' taken round rounds hleft hround hsending ih =>
    have hrest : rest ≠ [] := List.length_pos_iff.mp (by omega)
    obtain ⟨rest', client', hstep, hrunning', hlength', hwire⟩ := writeRound_of_step
      (rounds ++ (last ++ us)) hrest hround hrunning (hrounds.start (List.prefix_append _ _))
    obtain ⟨fuel, rfl⟩ : ∃ k, fuel = k + 1 := Nat.exists_eq_succ_of_ne_zero (by omega)
    have hfuel' : rounds.length < fuel := by
      have := hround.length_pos
      rw [List.length_append] at hfuel
      omega
    obtain ⟨outcome, client'', hloop, hfails, hrunning'', hwire'⟩ := ih hleft'
      (fun tick hmem => hrounds tick (List.mem_append_right _ hmem)) hfuel' hrunning' (hlength'.trans (by rw [hlength]))
    refine ⟨outcome, client'', ?_, hfails, hrunning'', by omega⟩
    rw [List.append_assoc, Program.iterateFuel_again hstep]
    exact hloop

theorem sendText_of_cutShort {exn : Exn} (hcut : CutShort v.windows text.length exn ts us)
    (hrunning : client.env.running = true)
    : ∃ client', sendText v text client ts = (.error exn, client', us) ∧ client'.env.running = true
        ∧ client.wire.length < client'.wire.length := by
  obtain ⟨rounds, last, left, rfl, hsending, hend, hleft, hpart, hrounds, hlast⟩ := hcut
  have hfuel : rounds.length < (rounds ++ (last ++ us)).length + 1 := by
    rw [List.length_append]
    omega
  obtain ⟨outcome, client', hloop, hfails, hrunning', hwire⟩ :=
    iterateFuel_of_sending us hsending hend hleft hrounds hlast hfuel hrunning rfl
  refine ⟨client', ?_, hrunning', by omega⟩
  replace hloop : writeSocketAll v text client (rounds ++ (last ++ us)) = (outcome, client', us) := hloop
  unfold sendText
  rcases outcome with (_ | _) | _ | _
  . cases hfails
    rw [Program.bind_ok hloop]
    rfl
  . cases hfails
  . cases hfails
    exact Program.bind_error hloop
  . cases hfails

end Forward

end Client
end HikBridge
