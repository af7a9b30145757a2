import HikBridge.SessionStatus.Basic

/-!
This module says once what a call of the status registry can do to the record of one session. The
laws about the status of a session over whole runs all follow from `apply_items_cases`.
-/

namespace HikBridge

inductive StatusCall where
  | none
  | cleanup (now : Int)
  | setActive (sid : Bytes) (reads : Reads)
  | setOutputReady (sid : Bytes) (reads : Reads)
  | setBrowserFirstFrame (sid : Bytes) (elapsed : Int) (reads : Reads)
  | setEnded (sid : Bytes) (reason : StreamEndReason) (current peak backpressure : Nat)
    (reads : Reads)
  deriving DecidableEq, Repr

namespace StatusCall

def apply (statuses : SessionStatusRegistry) (call : StatusCall) : SessionStatusRegistry :=
  match call with
  | .none => statuses
  | .cleanup now => statuses.cleanupLocked now
  | .setActive sid reads => statuses.setActive sid reads
  | .setOutputReady sid reads => statuses.setOutputReady sid reads
  | .setBrowserFirstFrame sid elapsed reads =>
    (statuses.setBrowserFirstFrame sid elapsed reads).2
  | .setEnded sid reason current peak backpressure reads =>
    statuses.setEnded sid reason (endReasonMessage reason) current peak backpressure reads

def cleanupTime (call : StatusCall) : Option Int :=
  match call with
  | .none | .setOutputReady _ _ | .setBrowserFirstFrame _ _ _ => Option.none
  | .cleanup now => some now
  | .setActive _ reads | .setEnded _ _ _ _ _ reads => some reads.cleanup

/--
The ten minutes of retention of the record of `sid` have passed when the call cleans up.
-/
def Evicts (statuses : SessionStatusRegistry) (call : StatusCall) (sid : Bytes) : Prop :=
  ∃ now value, call.cleanupTime = some now ∧ statuses.items sid = some value
    ∧ SessionStatusRegistry.expired now value = true

-- What a call does to a record that it does not write for the session itself.
def Keeps (statuses : SessionStatusRegistry) (call : StatusCall) (sid : Bytes) : Prop :=
  ((call.apply statuses).items sid = Option.none
      ∧ ∀ value, statuses.items sid = some value → call.Evicts statuses sid)
    ∨ ∃ old value, statuses.items sid = some old ∧ (call.apply statuses).items sid = some value
      ∧ value.status = old.status ∧ value.endReason = old.endReason ∧ value.started = old.started

variable {statuses : SessionStatusRegistry} {sid : Bytes}

theorem keeps_of_items_eq {call : StatusCall} (h : (call.apply statuses).items sid = statuses.items sid)
    : call.Keeps statuses sid := by
  cases hitem : statuses.items sid with
  | none =>
    left
    exact ⟨by rw [h, hitem], by simp [hitem]⟩
  | some value =>
    right
    exact ⟨value, value, hitem, by rw [h, hitem], rfl, rfl, rfl⟩

theorem keeps_of_items_eq_cleanup {call : StatusCall} {now : Int} (htime : call.cleanupTime = some now)
    (h : (call.apply statuses).items sid = (statuses.cleanupLocked now).items sid)
    : call.Keeps statuses sid := by
  rw [SessionStatusRegistry.cleanupLocked_items] at h
  cases hitem : statuses.items sid with
  | none =>
    rw [hitem] at h
    left
    exact ⟨h, by simp [hitem]⟩
  | some value =>
    rw [hitem] at h
    cases hexpired : SessionStatusRegistry.expired now value with
    | true =>
      left
      refine ⟨by simpa [Option.filter, hexpired] using h, ?_⟩
      intro _ _
      exact ⟨now, value, htime, hitem, hexpired⟩
    | false =>
      right
      exact ⟨value, value, hitem, by simpa [Option.filter, hexpired] using h, rfl, rfl, rfl⟩

/--
What a call can do to the record of `sid`: register the session, publish its end, where a manual
cleanup that is already recorded stays, or keep its status and end reason unless it evicts it.
-/
theorem apply_items_cases (statuses : SessionStatusRegistry) (call : StatusCall) (sid : Bytes)
    : (∃ reads, call = .setActive sid reads
        ∧ (call.apply statuses).items sid
          = some { SessionStatusRegistry.defaultStatus reads with sid })
      ∨ (∃ reason current peak backpressure reads value,
        call = .setEnded sid reason current peak backpressure reads
          ∧ (call.apply statuses).items sid = some value
          ∧ ((value.endReason = "manual_cleanup"
              ∧ (statuses.cleanupLocked reads.cleanup).items sid = some value)
            ∨ (value.status = "ended" ∧ value.endReason = endReasonName reason)))
      ∨ call.Keeps statuses sid := by
  cases call with
  | none =>
    right
    right
    exact keeps_of_items_eq rfl
  | cleanup now =>
    right
    right
    exact keeps_of_items_eq_cleanup rfl rfl
  | setActive key reads =>
    by_cases hkey : sid = key
    . subst hkey
      left
      exact ⟨reads, rfl, statuses.setActive_items_self⟩
    . right
      right
      exact keeps_of_items_eq_cleanup rfl (statuses.setActive_items_ne hkey)
  | setOutputReady key reads =>
    right
    right
    by_cases hkey : sid = key
    . subst hkey
      cases hitem : statuses.items sid with
      | none =>
        apply keeps_of_items_eq
        simp [apply, SessionStatusRegistry.setOutputReady, hitem]
      | some old =>
        obtain ⟨value, hvalue, hkept⟩ := statuses.setOutputReady_items_self reads hitem
        right
        exact ⟨old, value, hitem, hvalue, hkept⟩
    . exact keeps_of_items_eq (statuses.setOutputReady_items_ne hkey)
  | setBrowserFirstFrame key elapsed reads =>
    right
    right
    by_cases hkey : sid = key
    . subst hkey
      cases hitem : statuses.items sid with
      | none =>
        apply keeps_of_items_eq
        simp [apply, SessionStatusRegistry.setBrowserFirstFrame, hitem]
      | some old =>
        obtain ⟨value, hvalue, hkept⟩ :=
          statuses.setBrowserFirstFrame_items_self elapsed reads hitem
        right
        exact ⟨old, value, hitem, hvalue, hkept⟩
    . exact keeps_of_items_eq (statuses.setBrowserFirstFrame_items_ne elapsed hkey)
  | setEnded key reason current peak backpressure reads =>
    by_cases hkey : sid = key
    . subst hkey
      right
      left
      obtain ⟨value, hvalue, hcases⟩ := statuses.setEnded_items_self reason
        (endReasonMessage reason) current peak backpressure sid reads
      exact ⟨reason, current, peak, backpressure, reads, value, rfl, hvalue, hcases⟩
    . right
      right
      exact keeps_of_items_eq_cleanup rfl (statuses.setEnded_items_ne _ _ _ _ _ hkey)

def ManualEnded (statuses : SessionStatusRegistry) : Prop :=
  ∀ sid value, statuses.items sid = some value → value.endReason = "manual_cleanup"
    → value.status = "ended"

def Manual (statuses : SessionStatusRegistry) (sid : Bytes) : Prop :=
  ∃ value, statuses.items sid = some value ∧ value.status = "ended"
    ∧ value.endReason = "manual_cleanup"

theorem cleanupLocked_items_eq_some {now : Int} {value : SessionStatus}
    (h : (statuses.cleanupLocked now).items sid = some value) : statuses.items sid = some value := by
  rw [SessionStatusRegistry.cleanupLocked_items, Option.filter_eq_some_iff] at h
  exact h.1

theorem get_eq_some_of_not_evicts {now : Int} {value : SessionStatus}
    (hitem : statuses.items sid = some value) (h : ¬ (cleanup now).Evicts statuses sid)
    : (statuses.get sid now).1 = some value := by
  have hkept : SessionStatusRegistry.expired now value = false := by
    rw [Bool.eq_false_iff]
    intro hexpired
    exact h ⟨now, value, rfl, hitem, hexpired⟩
  simp only [SessionStatusRegistry.get, SessionStatusRegistry.cleanupLocked_items, hitem]
  simp [hkept]

theorem manualEnded_apply (call : StatusCall) (h : ManualEnded statuses)
    : ManualEnded (call.apply statuses) := by
  intro sid value hitem hmanual
  rcases apply_items_cases statuses call sid with ⟨reads, -, hnew⟩
    | ⟨reason, _, _, _, reads, new, -, hnew, ⟨-, hold⟩ | ⟨hended, -⟩⟩
    | ⟨hnone, -⟩ | ⟨old, new, hold, hnew, hstatus, hreason, -⟩
  . rw [hnew] at hitem
    cases hitem
    exact absurd hmanual (by simp [SessionStatusRegistry.defaultStatus])
  . rw [hnew] at hitem
    cases hitem
    exact h sid _ (cleanupLocked_items_eq_some hold) hmanual
  . rw [hnew] at hitem
    cases hitem
    exact hended
  . rw [hnone] at hitem
    contradiction
  . rw [hnew] at hitem
    cases hitem
    rw [hstatus]
    apply h sid old hold
    rw [← hreason]
    exact hmanual

theorem manual_setEnded (h : ManualEnded statuses) (reads : Reads) (current peak backpressure : Nat)
    : Manual (apply statuses (.setEnded sid .ManualCleanup current peak backpressure reads)) sid := by
  have hended := manualEnded_apply (.setEnded sid .ManualCleanup current peak backpressure reads) h
  obtain ⟨value, hvalue, hcases⟩ := statuses.setEnded_items_self .ManualCleanup
    (endReasonMessage .ManualCleanup) current peak backpressure sid reads
  have hmanual : value.endReason = "manual_cleanup" := by
    rcases hcases with ⟨hmanual, -⟩ | ⟨-, hmanual⟩
    . exact hmanual
    . exact hmanual
  exact ⟨value, hvalue, hended sid value hvalue hmanual, hmanual⟩

theorem manual_apply {call : StatusCall} (h : Manual statuses sid)
    (hreset : ∀ reads, call ≠ .setActive sid reads) (hevict : ¬ call.Evicts statuses sid)
    : Manual (call.apply statuses) sid := by
  obtain ⟨value, hitem, hstatus, hreason⟩ := h
  rcases apply_items_cases statuses call sid with ⟨reads, hcall, -⟩
    | ⟨reason, current, peak, backpressure, reads, new, hcall, -, -⟩
    | ⟨-, hnone⟩ | ⟨old, new, hold, hnew, hstatus', hreason', -⟩
  . exact absurd hcall (hreset reads)
  . subst hcall
    -- `set_ended` finds the record alive and leaves it alone
    have hexpired : SessionStatusRegistry.expired reads.cleanup value = false := by
      by_contra hexpired
      exact hevict ⟨reads.cleanup, value, rfl, hitem, by simpa using hexpired⟩
    have hclean : (statuses.cleanupLocked reads.cleanup).items sid = some value := by
      simp [SessionStatusRegistry.cleanupLocked_items, hitem, hexpired]
    refine ⟨value, ?_, hstatus, hreason⟩
    simp only [apply, SessionStatusRegistry.setEnded]
    rw [hclean]
    simpa [hreason] using hclean
  . exact absurd (hnone value hitem) hevict
  . rw [hitem] at hold
    cases hold
    exact ⟨new, hnew, by rw [hstatus', hstatus], by rw [hreason', hreason]⟩

end StatusCall
end HikBridge
