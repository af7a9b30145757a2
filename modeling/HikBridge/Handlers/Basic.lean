import HikBridge.Lib.Machine
import HikBridge.SessionRegistry.Basic
import HikBridge.SessionStatus.Calls

/-!
This module contains the concurrent run of `/video` handlers, cleans and status queries. A step is
one critical section of the status registry or one part of a critical section of the session
registry between two calls into the status registry, so that everything that can interleave does.
-/

namespace HikBridge

-- The control state of one `/video` handler with respect to the two registries.
inductive HandlerPc where
  | idle
  | running (id : Nat) (sid : Bytes)
  -- inside `publish_status`, after `lease->cancelled()` was read
  | publishing (id : Nat) (sid : Bytes) (reason : StreamEndReason)
  | published (id : Nat) (sid : Bytes)
  | done
  deriving DecidableEq, Repr

/--
What the owner of `SessionRegistry::mutex_` is doing: a `reserve` that passed its checks, or a
`clean` with the states that its loop still has to visit.
-/
inductive Critical where
  | reserve (handler : Nat) (sid : Bytes) (fd : Int) (initialized : Bool)
  | clean (pending : List State) (marked : Bool) (affected : Nat)
  deriving DecidableEq, Repr

structure Bridge where
  registry : SessionRegistry
  statuses : SessionStatusRegistry := .empty
  mutex : Option Critical := none
  handlers : Nat → HandlerPc := fun _ => .idle
  fresh : Nat := 0

inductive BridgeEvent where
  | reserve (handler : Nat) (sid : Bytes) (fd : Int) (generation : Bytes)
  | setActive (reads : Reads)
  | reserveThrows
  | register
  | outputReady (handler : Nat) (reads : Reads)
  | browserFirstFrame (sid : Bytes) (elapsed : Int) (reads : Reads)
  | publish (handler : Nat) (reason : StreamEndReason)
  | setEnded (handler current peak backpressure : Nat) (reads : Reads)
  | release (handler : Nat)
  | clean
  | mark (reads : Reads)
  | cancel
  | cleanEnd
  | get (sid : Bytes) (now : Int)
  deriving DecidableEq, Repr

namespace SessionRegistry

-- `state->cancelled.store(true)`
def cancelState (r : SessionRegistry) (id : Nat) : SessionRegistry :=
  { r with states := r.states.map fun state =>
      if state.id = id then { state with cancelled := true } else state }

end SessionRegistry

namespace Bridge

def create (max : Int32) (now : Int) : Bridge :=
  { registry := SessionRegistry.create max now }

def setHandler (w : Bridge) (handler : Nat) (pc : HandlerPc) : Bridge :=
  { w with handlers := Function.update w.handlers handler pc }

-- The callback that `/cleanSessions` passes to `clean`.
def manualCleanup (statuses : SessionStatusRegistry) (sid : Bytes) (reads : Reads)
    : SessionStatusRegistry :=
  statuses.setEnded sid .ManualCleanup (endReasonMessage .ManualCleanup) 0 0 0 reads

def step (w : Bridge) (event : BridgeEvent) : Option Bridge :=
  match event with
  | .reserve handler sid fd generation =>
    match w.mutex, w.handlers handler with
    | none, .idle =>
      if w.registry.stale generation || decide (w.registry.states.length ≥ w.registry.maxSize) then
        some (w.setHandler handler .done)
      else
        some { w with mutex := some (.reserve handler sid fd false) }
    | _, _ => none
  | .setActive reads =>
    match w.mutex with
    | some (.reserve handler sid fd false) =>
      some { w with
        statuses := w.statuses.setActive sid reads
        mutex := some (.reserve handler sid fd true) }
    | _ => none
  | .reserveThrows =>
    match w.mutex with
    | some (.reserve handler _ _ _) => some { w.setHandler handler .done with mutex := none }
    | _ => none
  | .register =>
    match w.mutex with
    | some (.reserve handler sid fd true) =>
      let state := w.registry.newState w.fresh sid fd
      some { w.setHandler handler (.running w.fresh sid) with
        registry := { w.registry with states := w.registry.states ++ [state] }
        mutex := none
        fresh := w.fresh + 1 }
    | _ => none
  | .outputReady handler reads =>
    match w.handlers handler with
    | .running _ sid => some { w with statuses := w.statuses.setOutputReady sid reads }
    | _ => none
  | .browserFirstFrame sid elapsed reads =>
    some { w with statuses := (w.statuses.setBrowserFirstFrame sid elapsed reads).2 }
  | .publish handler reason =>
    match w.handlers handler with
    | .running id sid =>
      let reason := if w.registry.leaseCancelled id then .ManualCleanup else reason
      some (w.setHandler handler (.publishing id sid reason))
    | _ => none
  | .setEnded handler current peak backpressure reads =>
    match w.handlers handler with
    | .publishing id sid reason =>
      let statuses := w.statuses.setEnded sid reason (endReasonMessage reason) current peak
        backpressure reads
      some { w.setHandler handler (.published id sid) with statuses }
    | _ => none
  | .release handler =>
    -- A handler whose logging throws before its try block goes without publishing.
    match w.mutex, w.handlers handler with
    | none, .running id _ | none, .published id _ =>
      some { w.setHandler handler .done with registry := w.registry.release id }
    | _, _ => none
  | .clean =>
    match w.mutex with
    | none =>
      let registry := w.registry.nextGeneration
      some { w with registry, mutex := some (.clean registry.states false 0) }
    | _ => none
  | .mark reads =>
    match w.mutex with
    | some (.clean (state :: rest) false affected) =>
      if state.cancelled then
        some { w with mutex := some (.clean rest false affected) }
      else
        some { w with
          statuses := manualCleanup w.statuses state.sid reads
          mutex := some (.clean (state :: rest) true affected) }
    | _ => none
  | .cancel =>
    match w.mutex with
    | some (.clean (state :: rest) true affected) =>
      some { w with
        registry := w.registry.cancelState state.id
        mutex := some (.clean rest false (affected + 1)) }
    | _ => none
  | .cleanEnd =>
    match w.mutex with
    | some (.clean [] _ _) => some { w with mutex := none }
    | _ => none
  | .get sid now => some { w with statuses := (w.statuses.get sid now).2 }

def statusCall (w : Bridge) (event : BridgeEvent) : StatusCall :=
  match event, w.mutex with
  | .setActive reads, some (.reserve _ sid _ _) => .setActive sid reads
  | .mark reads, some (.clean (state :: _) _ _) =>
    if state.cancelled then .none else .setEnded state.sid .ManualCleanup 0 0 0 reads
  | .outputReady handler reads, _ =>
    match w.handlers handler with
    | .running _ sid => .setOutputReady sid reads
    | _ => .none
  | .browserFirstFrame sid elapsed reads, _ => .setBrowserFirstFrame sid elapsed reads
  | .setEnded handler current peak backpressure reads, _ =>
    match w.handlers handler with
    | .publishing _ sid reason => .setEnded sid reason current peak backpressure reads
    | _ => .none
  | .get _ now, _ => .cleanup now
  | _, _ => .none

theorem step_statuses {w w' : Bridge} {event : BridgeEvent} (h : step w event = some w')
    : w'.statuses = (statusCall w event).apply w.statuses := by
  unfold step at h
  split at h
  all_goals
    first
    | (cases h; rfl)
    | (split at h <;> try contradiction)
  . split at h
    all_goals
      cases h
      rfl
  . next hmutex =>
    cases h
    simp [statusCall, hmutex, StatusCall.apply]
  . cases h
    rfl
  . cases h
    rfl
  . next hpc =>
    cases h
    simp [statusCall, hpc, StatusCall.apply]
  . cases h
    rfl
  . next hpc =>
    cases h
    simp [statusCall, hpc, StatusCall.apply]
  . cases h
    rfl
  . cases h
    rfl
  . cases h
    rfl
  . next hmutex =>
    split at h
    all_goals
      next hcancelled =>
      cases h
      simp [statusCall, hmutex, hcancelled, StatusCall.apply, manualCleanup]
  . cases h
    rfl
  . cases h
    rfl

end Bridge
end HikBridge
