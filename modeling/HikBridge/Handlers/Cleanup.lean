import Mathlib.Data.List.Induction
import HikBridge.Handlers.Basic

/-!
This module shows that a manual cleanup wins every race with the handlers that it disconnects: the
reason that `clean` publishes before it cancels a session stays, whatever the handler reports later.
-/

namespace HikBridge
namespace Bridge

variable {max : Int32} {now : Int} {w w' u v : Bridge} {events : List BridgeEvent}
  {event : BridgeEvent} {state : State} {rest : List State} {affected : Nat}

theorem manualEnded_run (h : Machine.run step (create max now) events = some w)
    : StatusCall.ManualEnded w.statuses := by
  apply Machine.run_invariant (I := fun w => StatusCall.ManualEnded w.statuses) _ _ h
  . intro s e s' hs hstep
    rw [step_statuses hstep]
    apply StatusCall.manualEnded_apply
    exact hs
  . intro sid value hitem
    simp [create, SessionStatusRegistry.empty] at hitem

/--
The step neither registers a new session under `sid` nor evicts the record of `sid`.
-/
def KeepsRecord (sid : Bytes) (w : Bridge) (event : BridgeEvent) : Prop :=
  (∀ reads, w.statusCall event ≠ .setActive sid reads)
    ∧ ¬ (w.statusCall event).Evicts w.statuses sid

theorem manual_run {sid : Bytes} (hmanual : StatusCall.Manual w.statuses sid)
    (hkeep : Machine.Meets step (KeepsRecord sid) w events)
    (hrun : Machine.run step w events = some w') : StatusCall.Manual w'.statuses sid := by
  apply Machine.run_invariant_of_meets (I := fun w => StatusCall.Manual w.statuses sid) _
    hmanual hkeep hrun
  intro s e s' hs hkeep hstep
  rw [step_statuses hstep]
  apply StatusCall.manual_apply
  . exact hs
  . exact hkeep.1
  . exact hkeep.2

theorem mutex_marked_step (hstep : step w event = some w')
    (hmutex : w'.mutex = some (.clean (state :: rest) true affected))
    : w.mutex = w'.mutex
      ∨ ∃ reads, event = .mark reads ∧ w.mutex = some (.clean (state :: rest) false affected)
        ∧ state.cancelled = false := by
  unfold step at hstep
  split at hstep
  all_goals
    first
    | (cases hstep; exact .inl rfl)
    | (split at hstep <;> try contradiction)
  . split at hstep
    . cases hstep
      exact .inl rfl
    . cases hstep
      simp at hmutex
  . cases hstep
    simp at hmutex
  . cases hstep
    simp at hmutex
  . cases hstep
    simp at hmutex
  . cases hstep
    exact .inl rfl
  . cases hstep
    exact .inl rfl
  . cases hstep
    exact .inl rfl
  . cases hstep
    exact .inl rfl
  . cases hstep
    exact .inl rfl
  . cases hstep
    simp at hmutex
  . next hpending =>
    split at hstep
    . cases hstep
      simp at hmutex
    . next hcancelled =>
      cases hstep
      simp only [Option.some.injEq, Critical.clean.injEq, List.cons.injEq, true_and] at hmutex
      obtain ⟨⟨rfl, rfl⟩, rfl⟩ := hmutex
      right
      exact ⟨_, rfl, hpending, by simpa using hcancelled⟩
  . cases hstep
    simp at hmutex
  . cases hstep
    simp at hmutex

structure Marks (u : Bridge) (reads : Reads) (v : Bridge) (state : State) : Prop where
  step_eq : step u (.mark reads) = some v
  mutex_eq : ∃ rest affected, v.mutex = some (.clean (state :: rest) true affected)

theorem Marks.manual {reads : Reads} (h : Marks u reads v state)
    (hended : StatusCall.ManualEnded u.statuses) : StatusCall.Manual v.statuses state.sid := by
  obtain ⟨rest, affected, hmutex⟩ := h.mutex_eq
  rw [step_statuses h.step_eq]
  rcases mutex_marked_step h.step_eq hmutex with hsame | ⟨_, heq, hpending, hcancelled⟩
  . -- a state is marked only while it is not marked yet
    have hstep := h.step_eq
    simp [step, hsame, hmutex] at hstep
  . cases heq
    have hcall : u.statusCall (.mark reads) = .setEnded state.sid .ManualCleanup 0 0 0 reads := by
      simp [statusCall, hpending, hcancelled]
    rw [hcall]
    apply StatusCall.manual_setEnded
    exact hended

theorem counted_was_marked (hrun : Machine.run step (create max now) events = some w)
    (hmutex : w.mutex = some (.clean (state :: rest) true affected))
    : ∃ before reads between u v, events = before ++ .mark reads :: between
        ∧ Machine.run step (create max now) before = some u ∧ Marks u reads v state
        ∧ Machine.run step v between = some w := by
  induction events using List.reverseRecOn generalizing w with
  | nil =>
    cases hrun
    simp [create] at hmutex
  | append_singleton events event ih =>
    obtain ⟨w', hw', hlast⟩ := Machine.run_append_eq_some.mp hrun
    obtain ⟨_, hstep, hnil⟩ := Machine.run_cons_eq_some.mp hlast
    cases hnil
    rcases mutex_marked_step hstep hmutex with hsame | ⟨reads, rfl, -, -⟩
    . obtain ⟨before, reads, between, u, v, rfl, hu, hmarks, hbetween⟩ :=
        ih hw' (hsame.trans hmutex)
      refine ⟨before, reads, between ++ [event], u, v, by simp, hu, hmarks, ?_⟩
      exact Machine.run_append_eq_some.mpr ⟨w', hbetween, hlast⟩
    . exact ⟨events, reads, [], w', w, rfl, hw', ⟨hstep, rest, affected, hmutex⟩, rfl⟩

/--
Every session that a clean counts was marked by it, and from then on every answer for its sid reports
the manual cleanup, until the sid is reserved again or the record is evicted. There is an answer
unless `get` itself evicts the record.
-/
theorem manual_cleanup_wins {before after : List BridgeEvent} {w₂ : Bridge}
    (hrun : Machine.run step (create max now) before = some w)
    (hmutex : w.mutex = some (.clean (state :: rest) true affected))
    (hafter : Machine.run step w (.cancel :: after) = some w₂)
    : (∃ earlier reads between u v, before = earlier ++ .mark reads :: between
        ∧ Machine.run step (create max now) earlier = some u ∧ Marks u reads v state)
      ∧ ∀ earlier reads between u v, before = earlier ++ .mark reads :: between
        → Machine.run step (create max now) earlier = some u → Marks u reads v state
        → Machine.Meets step (KeepsRecord state.sid) v (between ++ .cancel :: after)
        → ∀ time,
          (¬ (StatusCall.cleanup time).Evicts w₂.statuses state.sid
              → (w₂.statuses.get state.sid time).1.isSome)
            ∧ ∀ value, (w₂.statuses.get state.sid time).1 = some value
              → value.status = "ended" ∧ value.endReason = "manual_cleanup" := by
  constructor
  . obtain ⟨earlier, reads, between, u, v, hsplit, hu, hmarks, -⟩ :=
      counted_was_marked hrun hmutex
    exact ⟨earlier, reads, between, u, v, hsplit, hu, hmarks⟩
  . rintro earlier reads between u v rfl hu hmarks hkeep time
    obtain ⟨u', hu', hrest⟩ := Machine.run_append_eq_some.mp hrun
    rw [hu] at hu'
    cases hu'
    obtain ⟨v', hv', hbetween⟩ := Machine.run_cons_eq_some.mp hrest
    rw [hmarks.step_eq] at hv'
    cases hv'
    have hwhole := Machine.run_append_eq_some.mpr ⟨w, hbetween, hafter⟩
    have hmanual := hmarks.manual (manualEnded_run hu)
    obtain ⟨record, hrecord, hended⟩ := manual_run hmanual hkeep hwhole
    constructor
    . intro hkept
      rw [StatusCall.get_eq_some_of_not_evicts hrecord hkept]
      rfl
    . intro value hget
      have hvalue := StatusCall.cleanupLocked_items_eq_some hget
      rw [hrecord] at hvalue
      cases hvalue
      exact hended

/--
A handler that read `cancelled()` before the clean and publishes its disconnect after it.
-/
theorem manual_cleanup_wins_late_disconnect
    : ∃ w₂ value, Machine.run step (create 16 0)
        ([.reserve 0 (Bytes.lit "live") 7 [], .setActive ⟨0, 0, 0, 0⟩, .register,
          .publish 0 .ClientReplaced, .clean, .mark ⟨1, 1, 1, 0⟩]
          ++ .cancel :: [.setEnded 0 0 0 0 ⟨2, 2, 2, 0⟩]) = some w₂
        ∧ (w₂.statuses.get (Bytes.lit "live") 3).1 = some value
        ∧ value.status = "ended" ∧ value.endReason = "manual_cleanup" := by
  refine ⟨_, _, rfl, rfl, ?_⟩
  have hmain := @manual_cleanup_wins 16 0 _ ⟨0, Bytes.lit "live", 7, Bytes.lit "0-0", false⟩ [] 0
    [.reserve 0 (Bytes.lit "live") 7 [], .setActive ⟨0, 0, 0, 0⟩, .register,
      .publish 0 .ClientReplaced, .clean, .mark ⟨1, 1, 1, 0⟩]
    [.setEnded 0 0 0 0 ⟨2, 2, 2, 0⟩] _ rfl rfl rfl
  apply hmain.2
    [.reserve 0 (Bytes.lit "live") 7 [], .setActive ⟨0, 0, 0, 0⟩, .register,
      .publish 0 .ClientReplaced, .clean] ⟨1, 1, 1, 0⟩ [] _ _ rfl rfl ⟨rfl, [], 0, rfl⟩ ?_ 3 |>.2 _
    rfl
  refine ⟨⟨fun _ h => (nomatch h), ?_⟩, ?_⟩
  . rintro ⟨time, value, htime, -, -⟩
    cases htime
  . intro s hs
    cases hs
    refine ⟨⟨fun _ h => (nomatch h), ?_⟩, fun _ _ => trivial⟩
    rintro ⟨time, value, htime, hvalue, hexpired⟩
    cases htime
    cases hvalue
    exact absurd hexpired (by decide)

end Bridge
end HikBridge
