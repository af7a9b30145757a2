import HikBridge.HttpBridgeServer.SdkUse

/-!
This module contains the runs of the C# bridge: where nothing is released under a call that is about to
be made, nothing is used after its release.
-/

namespace HikBridge

namespace HttpBridgeServer

structure Inv (w : HttpBridgeServer) : Prop where
  noUse : NoUseAfterRelease w.calls
  owns : ∀ id, (w.tasks id).Owns (callsOf id w.calls)
  fresh : ∀ id, w.requests ≤ id → callsOf id w.calls = []
  cleaned : .cleanup ∈ w.calls →
    w.initialized = false ∧ w.accept = .ended ∧ ∀ id < w.requests, (w.tasks id).Quiet

section

variable {w w' : HttpBridgeServer} {id : Nat}
  {step : StreamTask → Option (StreamTask × Option SdkCall)}

theorem inv_start : Inv {} where
  noUse := by
    intro before call after h
    simp at h
  owns id := StreamTask.Unreleased.owns ⟨by simp [callsOf], by simp [callsOf]⟩ _
  fresh id _ := rfl
  cleaned h := by simp at h

theorem inv_acceptLoop {settings : Option StreamSettings} (h : Inv w)
    (hstep : w.acceptLoop settings = some w') : Inv w' := by
  have hrunning : w.accept ≠ .ended → .cleanup ∉ w.calls := by
    intro hne hmem
    exact hne (h.cleaned hmem).2.1
  unfold acceptLoop at hstep
  split at hstep
  . next hpc =>
    cases hstep
    exact ⟨h.noUse, h.owns, h.fresh, fun hmem => absurd hmem (hrunning (by simp [hpc]))⟩
  . next hpc =>
    split at hstep
    . split at hstep
      . cases hstep
        exact ⟨h.noUse, h.owns, h.fresh, fun hmem => absurd hmem (hrunning (by simp [hpc]))⟩
      . contradiction
    . cases hstep
      exact ⟨h.noUse, h.owns, h.fresh, fun hmem => absurd hmem (hrunning (by simp [hpc]))⟩
  . next settings hpc =>
    cases hstep
    refine ⟨h.noUse, ?_, ?_, fun hmem => absurd hmem (hrunning (by simp [hpc]))⟩
    . intro id
      dsimp only
      by_cases hid : id = w.requests
      . subst hid
        rw [Function.update_self, h.fresh w.requests (le_refl _)]
        exact StreamTask.Unreleased.owns ⟨by simp, by simp⟩ _
      . rw [Function.update_of_ne hid]
        exact h.owns id
    . intro id hid
      exact h.fresh id (Nat.le_of_succ_le hid)
  . contradiction

theorem inv_taskStep (h : Inv w) (hstep : w.taskStep id step = some w')
    (howns : ∀ t call, step (w.tasks id) = some (t, call) →
      (∀ c, call = some c → c.Allowed (callsOf id w.calls))
        ∧ t.Owns (callsOf id w.calls ++ call.toList))
    (hquiet : ∀ t call, (w.tasks id).Quiet → step (w.tasks id) = some (t, call) →
      call = none ∧ t.Quiet)
    : Inv w' := by
  unfold taskStep at hstep
  split at hstep
  . next hid =>
    split at hstep
    . contradiction
    . next t call htask =>
      cases hstep
      obtain ⟨hallowed, hown⟩ := howns t call htask
      have hcleaned : .cleanup ∈ w.calls → call = none ∧ t.Quiet := by
        intro hmem
        exact hquiet t call ((h.cleaned hmem).2.2 id hid) htask
      constructor
      . cases call with
        | none =>
          dsimp only
          rw [Option.map_none, Option.toList_none, List.append_nil]
          exact h.noUse
        | some call =>
          apply h.noUse.append
          exact ⟨fun hmem => (nomatch (hcleaned hmem).1), hallowed call rfl⟩
      . intro other
        dsimp only
        rw [callsOf_append]
        by_cases hother : other = id
        . subst hother
          rw [Function.update_self, callsOf_task]
          exact hown
        . rw [Function.update_of_ne hother, callsOf_task_of_ne (Ne.symm hother), List.append_nil]
          exact h.owns other
      . intro other hother
        dsimp only at hother ⊢
        rw [callsOf_append, callsOf_task_of_ne (by omega), List.append_nil]
        exact h.fresh other hother
      . intro hmem
        have hbefore : .cleanup ∈ w.calls := by
          rcases List.mem_append.mp hmem with hmem | hmem
          . exact hmem
          . simp at hmem
        obtain ⟨hinitialized, haccept, htasks⟩ := h.cleaned hbefore
        refine ⟨hinitialized, haccept, ?_⟩
        intro other hother
        dsimp only
        by_cases hsame : other = id
        . subst hsame
          rw [Function.update_self]
          exact (hcleaned hbefore).2
        . rw [Function.update_of_ne hsame]
          exact htasks other hother
  . contradiction

theorem inv_dispose {timedOut : Bool} (h : Inv w) (horderly : w.Orderly (.dispose timedOut))
    (hstep : w.dispose timedOut = some w') : Inv w' := by
  unfold dispose at hstep
  split at hstep
  . cases hstep
    exact ⟨h.noUse, h.owns, h.fresh, h.cleaned⟩
  . cases hstep
    exact ⟨h.noUse, h.owns, h.fresh, h.cleaned⟩
  . split at hstep
    . cases hstep
      exact ⟨h.noUse, h.owns, h.fresh, h.cleaned⟩
    . contradiction
  . cases hstep
    exact ⟨h.noUse, h.owns, h.fresh, h.cleaned⟩
  . next hpc =>
    obtain ⟨haccept, hquiet⟩ := horderly hpc
    split at hstep
    . next hinitialized =>
      cases hstep
      have hnot : .cleanup ∉ w.calls := by
        intro hmem
        rw [(h.cleaned hmem).1] at hinitialized
        contradiction
      have hcalls : ∀ id, callsOf id (w.calls ++ [.cleanup]) = callsOf id w.calls := by
        intro id
        rw [callsOf_append]
        exact List.append_nil _
      constructor
      . exact h.noUse.append ⟨hnot, trivial⟩
      . intro id
        dsimp only
        rw [hcalls]
        exact h.owns id
      . intro id hid
        dsimp only
        rw [hcalls]
        exact h.fresh id hid
      . exact fun _ => ⟨rfl, haccept, hquiet⟩
    . cases hstep
      exact ⟨h.noUse, h.owns, h.fresh, h.cleaned⟩
  . contradiction

theorem inv_step {event : HttpBridgeEvent} (h : Inv w) (horderly : w.Orderly event)
    (hstep : w.step event = some w') : Inv w' := by
  unfold HttpBridgeServer.step at hstep
  cases event with
  | accept settings => exact inv_acceptLoop h hstep
  | request id input =>
    apply inv_taskStep h hstep
    . intro t call htask
      exact StreamTask.owns_requestStep (h.owns id) horderly htask
    . intro t call hquiet htask
      exact hquiet.requestStep htask
  | monitor id input =>
    apply inv_taskStep h hstep
    . intro t call htask
      exact StreamTask.owns_monitorStep (h.owns id) horderly htask
    . intro t call hquiet htask
      exact hquiet.monitorStep htask
  | finish id =>
    apply inv_taskStep h hstep
    . intro t call htask
      cases htask
      rw [Option.toList_none, List.append_nil]
      exact ⟨fun c hc => (nomatch hc), (h.owns id).finish⟩
    . intro t call hquiet htask
      cases htask
      exact ⟨rfl, hquiet.finish⟩
  | dispose timedOut => exact inv_dispose h horderly hstep

/--
In every run whose steps are all orderly, every call is given what its session still has, and none is
made after the SDK was cleaned up.
-/
theorem noUseAfterRelease_of_orderly {events : List HttpBridgeEvent}
    (horderly : Machine.Meets HttpBridgeServer.step Orderly {} events)
    (hrun : Machine.run HttpBridgeServer.step {} events = some w) : NoUseAfterRelease w.calls :=
  (Machine.run_invariant_of_meets (fun _ _ _ => inv_step) inv_start horderly hrun).noUse

end

-- A request for a recording, up to the point where its monitor runs.
def startedPlayback : List HttpBridgeEvent :=
  [.accept none, .accept (some { option := .Playback, readsConfiguration := false }), .accept none,
    .request 0 {}, .request 0 { number := 3 }, .request 0 {}, .request 0 {}, .request 0 {},
    .request 0 { number := 7 }, .request 0 {}, .request 0 {}, .request 0 {}]

-- The monitor ends before the stream is stopped, and the service stops after the request has ended.
def orderlyRun : List HttpBridgeEvent :=
  startedPlayback ++
    [.monitor 0 {}, .monitor 0 { positionDue := true }, .monitor 0 {}, .monitor 0 { position := 100 },
      .request 0 {}, .request 0 {}, .request 0 {}, .request 0 {}, .request 0 {}, .request 0 {},
      .dispose false, .dispose false, .accept none, .dispose false, .dispose false,
      .dispose false]

theorem noUseAfterRelease_of_orderly_playback
    : ∃ w, Machine.run HttpBridgeServer.step {} orderlyRun = some w ∧ .cleanup ∈ w.calls ∧
        NoUseAfterRelease w.calls := by
  have hcalls : (Machine.run HttpBridgeServer.step {} orderlyRun).map HttpBridgeServer.calls
      = some [.task 0 (.login 3), .task 0 (.useUser 3), .task 0 (.openStream .Playback 3 7),
          .task 0 (.useHandle 7), .task 0 (.useHandle 7), .task 0 (.useHandle 7),
          .task 0 (.stopStream .Playback 7), .task 0 (.logout 3), .cleanup] := by
    decide +kernel
  obtain ⟨w, hrun, hw⟩ := Option.map_eq_some_iff.mp hcalls
  refine ⟨w, hrun, by simp [hw], ?_⟩
  exact noUseAfterRelease_of_orderly (by decide +kernel) hrun

-- The request stops the stream between the read of the monitor and its call.
def staleRun : List HttpBridgeEvent :=
  startedPlayback ++
    [.monitor 0 {}, .monitor 0 { positionDue := true }, .monitor 0 {},
      .request 0 {}, .request 0 {}, .request 0 {}, .request 0 {}, .monitor 0 {}]

-- The service stops while the recording plays.
def stoppedRun : List HttpBridgeEvent :=
  startedPlayback ++
    [.dispose false, .dispose false, .accept none, .dispose false, .dispose false,
      .dispose false, .request 0 {}, .request 0 {}, .request 0 {}, .request 0 {}]

/--
The monitor passes a handle on after it was stopped, and a request stops its stream after the SDK was
cleaned up.
-/
theorem noUseAfterRelease_broken
    : (∃ w, Machine.run HttpBridgeServer.step {} staleRun = some w ∧ ¬ NoUseAfterRelease w.calls)
        ∧ ∃ w, Machine.run HttpBridgeServer.step {} stoppedRun = some w ∧
          ¬ NoUseAfterRelease w.calls := by
  have hstale : (Machine.run HttpBridgeServer.step {} staleRun).map HttpBridgeServer.calls
      = some [.task 0 (.login 3), .task 0 (.useUser 3), .task 0 (.openStream .Playback 3 7),
          .task 0 (.useHandle 7), .task 0 (.useHandle 7), .task 0 (.stopStream .Playback 7),
          .task 0 (.useHandle 7)] := by
    decide +kernel
  have hstopped : (Machine.run HttpBridgeServer.step {} stoppedRun).map HttpBridgeServer.calls
      = some [.task 0 (.login 3), .task 0 (.useUser 3), .task 0 (.openStream .Playback 3 7),
          .task 0 (.useHandle 7), .task 0 (.useHandle 7), .cleanup,
          .task 0 (.stopStream .Playback 7)] := by
    decide +kernel
  obtain ⟨w, hrun, hw⟩ := Option.map_eq_some_iff.mp hstale
  obtain ⟨v, hrun', hv⟩ := Option.map_eq_some_iff.mp hstopped
  refine ⟨⟨w, hrun, ?_⟩, ⟨v, hrun', ?_⟩⟩
  . intro h
    rw [hw] at h
    have hcall := h [_, _, _, _, _, _] _ [] rfl
    exact hcall.2.1 7 rfl .Playback (by decide)
  . intro h
    rw [hv] at h
    have hcall := h [_, _, _, _, _, _] _ [] rfl
    exact hcall.1 (by decide)

end HttpBridgeServer

end HikBridge
