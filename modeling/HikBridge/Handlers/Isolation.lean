import HikBridge.Handlers.Basic

/-!
This module is about the record that a client reads while its session is the newest one under its
sid: which steps of other handlers can end it, and which can not.
-/

namespace HikBridge
namespace Bridge

variable {w w₁ w₂ : Bridge} {events : List BridgeEvent} {sid : Bytes}

/--
The step neither registers a session under `sid` nor reports the end of one: no handler of a session
with this sid publishes, and no clean records its cleanup.
-/
def LeavesSession (sid : Bytes) (w : Bridge) (event : BridgeEvent) : Prop :=
  match w.statusCall event with
  | .setActive key _ => key ≠ sid
  | .setEnded key _ _ _ _ _ => key ≠ sid
  | _ => True

def Describes (sid : Bytes) (reads : Reads) (w : Bridge) : Prop :=
  ∀ value, w.statuses.items sid = some value
    → value.status = "active" ∧ value.endReason = "active" ∧ value.started = reads.started

theorem describes_setActive {handler : Nat} {fd : Int} {reads : Reads}
    (hmutex : w.mutex = some (.reserve handler sid fd false))
    (hstep : step w (.setActive reads) = some w₁) : Describes sid reads w₁ := by
  intro value hitem
  rw [step_statuses hstep] at hitem
  have hcall : w.statusCall (.setActive reads) = .setActive sid reads := by
    simp [statusCall, hmutex]
  rw [hcall] at hitem
  simp only [StatusCall.apply, SessionStatusRegistry.setActive_items_self] at hitem
  cases hitem
  exact ⟨rfl, rfl, rfl⟩

theorem describes_step {reads : Reads} {event : BridgeEvent} (hdescribes : Describes sid reads w)
    (hleaves : LeavesSession sid w event) (hstep : step w event = some w₁)
    : Describes sid reads w₁ := by
  intro value hitem
  rw [step_statuses hstep] at hitem
  unfold LeavesSession at hleaves
  rcases StatusCall.apply_items_cases w.statuses (w.statusCall event) sid with
    ⟨_, hcall, -⟩ | ⟨_, _, _, _, _, _, hcall, -⟩ | ⟨hnone, -⟩
    | ⟨old, new, hold, hnew, hstatus, hreason, hstarted⟩
  . rw [hcall] at hleaves
    exact absurd rfl hleaves
  . rw [hcall] at hleaves
    exact absurd rfl hleaves
  . rw [hnone] at hitem
    contradiction
  . rw [hnew] at hitem
    cases hitem
    rw [hstatus, hreason, hstarted]
    exact hdescribes old hold

/--
From the registration of a session under `sid` on, as long as no handler of a session with that sid
publishes its end, no clean records its cleanup and the sid is not registered again, every answer for
the sid describes this session and says that it is active.
-/
theorem answers_describe_newest {handler : Nat} {fd : Int} {reads : Reads}
    (hmutex : w.mutex = some (.reserve handler sid fd false))
    (hregister : step w (.setActive reads) = some w₁)
    (hmeets : Machine.Meets step (LeavesSession sid) w₁ events)
    (hrun : Machine.run step w₁ events = some w₂)
    : ∀ now value, (w₂.statuses.get sid now).1 = some value
        → value.status = "active" ∧ value.endReason = "active" ∧ value.started = reads.started := by
  intro now value hget
  have hdescribes : Describes sid reads w₂ := by
    apply Machine.run_invariant_of_meets _ _ hmeets hrun
    . intro s e s' hs hleaves hstep
      exact describes_step hs hleaves hstep
    . exact describes_setActive hmutex hregister
  apply hdescribes
  exact StatusCall.cleanupLocked_items_eq_some hget

/--
A session that takes the place of an older one with the same sid. The older handler still reports its
first output, and has not yet published the end that it found.
-/
theorem answers_describe_newest_of_two
    : ∃ w w₁ w₂, Machine.run step (create 16 0)
          [.reserve 0 (Bytes.lit "live") 7 [], .setActive ⟨0, 0, 0, 0⟩, .register,
            .reserve 1 (Bytes.lit "live") 8 []] = some w
        ∧ step w (.setActive ⟨1, 1, 1, 1⟩) = some w₁
        ∧ Machine.run step w₁ [.register, .outputReady 0 ⟨2, 2, 2, 2⟩, .publish 0 .ClientReplaced,
          .outputReady 1 ⟨3, 3, 3, 3⟩] = some w₂
        ∧ ∀ now value, (w₂.statuses.get (Bytes.lit "live") now).1 = some value
          → value.status = "active" ∧ value.endReason = "active" ∧ value.started = 1 := by
  let w := (Machine.run step (create 16 0)
    [.reserve 0 (Bytes.lit "live") 7 [], .setActive ⟨0, 0, 0, 0⟩, .register,
      .reserve 1 (Bytes.lit "live") 8 []]).get rfl
  refine ⟨w, _, _, rfl, rfl, rfl, ?_⟩
  apply @answers_describe_newest w _ _ [.register, .outputReady 0 ⟨2, 2, 2, 2⟩,
    .publish 0 .ClientReplaced, .outputReady 1 ⟨3, 3, 3, 3⟩] (Bytes.lit "live") 1 8 ⟨1, 1, 1, 1⟩
    rfl rfl _ rfl
  refine ⟨trivial, fun _ h => ?_⟩
  cases h
  refine ⟨trivial, fun _ h => ?_⟩
  cases h
  refine ⟨trivial, fun _ h => ?_⟩
  cases h
  exact ⟨trivial, fun _ _ => trivial⟩

/--
The record is not isolated from an older session with the same sid, nor from the clean that has
recorded the end of the session and not yet cancelled it.
-/
theorem answer_ended_while_running
    : (∃ w value, Machine.run step (create 16 0)
          [.reserve 0 (Bytes.lit "live") 7 [], .setActive ⟨0, 0, 0, 0⟩, .register,
            .reserve 1 (Bytes.lit "live") 8 [], .setActive ⟨1, 1, 1, 1⟩, .register,
            .publish 0 .ClientReplaced, .setEnded 0 0 0 0 ⟨2, 2, 2, 2⟩] = some w
        ∧ w.handlers 1 = .running 1 (Bytes.lit "live") ∧ w.registry.leaseCancelled 1 = false
        ∧ (w.statuses.get (Bytes.lit "live") 3).1 = some value ∧ value.status = "ended")
      ∧ ∃ w value, Machine.run step (create 16 0)
          [.reserve 0 (Bytes.lit "live") 7 [], .setActive ⟨0, 0, 0, 0⟩, .register,
            .clean, .mark ⟨1, 1, 1, 1⟩] = some w
        ∧ w.handlers 0 = .running 0 (Bytes.lit "live") ∧ w.registry.leaseCancelled 0 = false
        ∧ (w.statuses.get (Bytes.lit "live") 2).1 = some value ∧ value.status = "ended" :=
  ⟨⟨_, _, rfl, rfl, rfl, rfl, rfl⟩, ⟨_, _, rfl, rfl, rfl, rfl, rfl⟩⟩

end Bridge
end HikBridge
