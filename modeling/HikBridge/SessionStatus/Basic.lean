import Mathlib.Logic.Function.Basic
import HikBridge.Basic

/-!
This module contains `SessionStatusRegistry`: the records from which a player learns, after its
stream broke off, whether it may reconnect. Every function is the body of one critical section of
the registry's own mutex and takes the clock readings that the call makes.
-/

namespace HikBridge

-- Steady clock readings are in nanoseconds, calendar time in seconds.
structure SessionStatus where
  sid : Bytes := []
  status : String := "active"
  endReason : String := "active"
  message : String := ""
  queueCurrentBytes : Nat := 0
  queuePeakBytes : Nat := 0
  backpressureEvents : Nat := 0
  updated : Int
  started : Int
  outputReady : Option Int := none
  browserFirstFrame : Option Int := none
  outputReadyUtc : Option Int := none
  browserFirstFrameUtc : Option Int := none
  browserClientElapsedMs : Int := 0
  updatedUtc : Int
  deriving DecidableEq

/--
The clock readings of one call: the one of `cleanup_locked`, the ones that end up in a record.
-/
structure Reads where
  cleanup : Int
  updated : Int
  started : Int
  utc : Int
  deriving DecidableEq, Repr

structure SessionStatusRegistry where
  items : Bytes → Option SessionStatus

namespace SessionStatusRegistry

def empty : SessionStatusRegistry := ⟨fun _ => none⟩

-- `std::chrono::minutes(10)`
def retention : Int := 600000000000

def expired (now : Int) (value : SessionStatus) : Bool := decide (value.updated < now - retention)

def cleanupLocked (r : SessionStatusRegistry) (now : Int) : SessionStatusRegistry :=
  ⟨fun sid => (r.items sid).filter fun value => !expired now value⟩

def insert (r : SessionStatusRegistry) (sid : Bytes) (value : SessionStatus)
    : SessionStatusRegistry :=
  ⟨Function.update r.items sid (some value)⟩

-- `SessionStatus{}`
def defaultStatus (reads : Reads) : SessionStatus :=
  { updated := reads.updated, started := reads.started, updatedUtc := reads.utc }

def setActive (r : SessionStatusRegistry) (sid : Bytes) (reads : Reads) : SessionStatusRegistry :=
  (r.cleanupLocked reads.cleanup).insert sid { defaultStatus reads with sid }

def setEnded (r : SessionStatusRegistry) (sid : Bytes) (reason : StreamEndReason)
    (message : String) (current peak backpressure : Nat) (reads : Reads)
    : SessionStatusRegistry :=
  let r := r.cleanupLocked reads.cleanup
  let value := (r.items sid).getD (defaultStatus reads)
  -- A cleanup is final: a late disconnect of the same session must not overwrite it.
  if value.endReason = "manual_cleanup" then
    r
  else
    r.insert sid { value with
      sid
      status := "ended"
      endReason := endReasonName reason
      message
      queueCurrentBytes := current
      queuePeakBytes := peak
      backpressureEvents := backpressure
      updated := reads.updated
      updatedUtc := reads.utc }

def setOutputReady (r : SessionStatusRegistry) (sid : Bytes) (reads : Reads)
    : SessionStatusRegistry :=
  match r.items sid with
  | none => r
  | some value =>
    r.insert sid { value with
      outputReady := some reads.updated
      updated := reads.updated
      outputReadyUtc := some reads.utc
      updatedUtc := reads.utc }

-- `duration_cast<milliseconds>` truncates towards zero.
def toMilliseconds (duration : Int) : Int := duration.tdiv 1000000

def setBrowserFirstFrame (r : SessionStatusRegistry) (sid : Bytes) (clientElapsedMs : Int)
    (reads : Reads) : Option (Int × Int) × SessionStatusRegistry :=
  match r.items sid with
  | none => (none, r)
  | some value =>
    let firstFrame := value.browserFirstFrame.getD reads.updated
    let firstFrameUtc :=
      if value.browserFirstFrame.isNone then some reads.utc else value.browserFirstFrameUtc
    let total := toMilliseconds (firstFrame - value.started)
    let outputToFrame :=
      match value.outputReady with
      | some outputReady => toMilliseconds (firstFrame - outputReady)
      | none => -1
    (some (total, outputToFrame), r.insert sid { value with
      browserFirstFrame := some firstFrame
      browserFirstFrameUtc := firstFrameUtc
      browserClientElapsedMs := clientElapsedMs
      updated := reads.updated
      updatedUtc := reads.utc })

def get (r : SessionStatusRegistry) (sid : Bytes) (now : Int)
    : Option SessionStatus × SessionStatusRegistry :=
  let r := r.cleanupLocked now
  (r.items sid, r)

section Lemmas

variable (r : SessionStatusRegistry) {sid key : Bytes} {reads : Reads} {now : Int}

theorem cleanupLocked_items
    : (r.cleanupLocked now).items key = (r.items key).filter fun value => !expired now value := rfl

@[simp]
theorem insert_items_self (value : SessionStatus) : (r.insert sid value).items sid = some value := by
  simp [insert]

@[simp]
theorem insert_items_ne (value : SessionStatus) (h : key ≠ sid)
    : (r.insert sid value).items key = r.items key := by
  simp [insert, h]

@[simp]
theorem setActive_items_self
    : (r.setActive sid reads).items sid = some { defaultStatus reads with sid } := by
  simp [setActive]

theorem setActive_items_ne (h : key ≠ sid)
    : (r.setActive sid reads).items key = (r.cleanupLocked reads.cleanup).items key := by
  simp [setActive, h]

variable (reason : StreamEndReason) (message : String) (current peak backpressure : Nat)

theorem setEnded_items_ne (h : key ≠ sid)
    : (r.setEnded sid reason message current peak backpressure reads).items key
        =
      (r.cleanupLocked reads.cleanup).items key := by
  unfold setEnded
  dsimp
  split
  . rfl
  . simp [h]

theorem setEnded_items_self (sid : Bytes) (reads : Reads)
    : ∃ value, (r.setEnded sid reason message current peak backpressure reads).items sid
          = some value
        ∧ ((value.endReason = "manual_cleanup"
            ∧ (r.cleanupLocked reads.cleanup).items sid = some value)
          ∨ (value.status = "ended" ∧ value.endReason = endReasonName reason)) := by
  unfold setEnded
  dsimp
  split
  . next hmanual =>
    cases hitem : (r.cleanupLocked reads.cleanup).items sid with
    | none =>
      rw [hitem] at hmanual
      exact absurd hmanual (by simp [defaultStatus])
    | some value =>
      rw [hitem] at hmanual
      exact ⟨value, rfl, .inl ⟨hmanual, rfl⟩⟩
  . simp

theorem setOutputReady_items_ne (h : key ≠ sid)
    : (r.setOutputReady sid reads).items key = r.items key := by
  unfold setOutputReady
  split
  . rfl
  . simp [h]

theorem setOutputReady_items_self {old : SessionStatus} (reads : Reads) (h : r.items sid = some old)
    : ∃ value, (r.setOutputReady sid reads).items sid = some value ∧ value.status = old.status
        ∧ value.endReason = old.endReason ∧ value.started = old.started := by
  unfold setOutputReady
  rw [h]
  dsimp
  rw [insert_items_self]
  exact ⟨_, rfl, rfl, rfl, rfl⟩

theorem setBrowserFirstFrame_items_self {old : SessionStatus} (elapsed : Int) (reads : Reads)
    (h : r.items sid = some old)
    : ∃ value, (r.setBrowserFirstFrame sid elapsed reads).2.items sid = some value
        ∧ value.status = old.status ∧ value.endReason = old.endReason
        ∧ value.started = old.started := by
  unfold setBrowserFirstFrame
  rw [h]
  dsimp
  rw [insert_items_self]
  exact ⟨_, rfl, rfl, rfl, rfl⟩

theorem setBrowserFirstFrame_items_ne (elapsed : Int) (h : key ≠ sid)
    : (r.setBrowserFirstFrame sid elapsed reads).2.items key = r.items key := by
  unfold setBrowserFirstFrame
  split
  . rfl
  . simp [h]

end Lemmas

end SessionStatusRegistry
end HikBridge
