import HikBridge.HttpBridgeServer.Basic

/-!
This module contains what the C# bridge may call after it has released something: no stream that was
stopped, no login that was ended, and nothing at all once the SDK has been cleaned up.
-/

namespace HikBridge

def callsOf (id : Nat) (calls : List NetDvrCall) : List SdkCall :=
  calls.filterMap fun call =>
    match call with
    | .task other call => if other = id then some call else none
    | .cleanup => none

namespace SdkCall

def Allowed (before : List SdkCall) (call : SdkCall) : Prop :=
  (∀ handle, call.handle? = some handle → ∀ option, .stopStream option handle ∉ before)
    ∧ ∀ user, call.user? = some user → .logout user ∉ before

end SdkCall

/--
After `NET_DVR_Cleanup` no call is allowed. The numbers of handles come back, so a call is held against
what its own session has released.
-/
def NetDvrCall.Allowed (before : List NetDvrCall) (call : NetDvrCall) : Prop :=
  .cleanup ∉ before ∧
    match call with
    | .task id call => call.Allowed (callsOf id before)
    | .cleanup => True

def NoUseAfterRelease (calls : List NetDvrCall) : Prop :=
  ∀ before call after, calls = before ++ call :: after → call.Allowed before

namespace WatchPc

-- The handle that the monitor has read for its next call.
def handle? : WatchPc → Option Int
  | .controlling handle _ | .positioning handle => some handle
  | _ => none

def readsHandle : WatchPc → Bool
  | .keepAlive _ | .position => true
  | _ => false

end WatchPc

namespace StreamTask

-- The monitor finds that the stream is over before its next call.
def watchQuiet (t : StreamTask) : Bool :=
  match t.monitor with
  | .notStarted | .exited => true
  | .loop => t.stopRequested || decide (t.streamHandle < 0)
  | .sleeping => decide (t.streamHandle < 0)
  | .keptAlive positionDue =>
    t.ended || !positionDue && (t.stopRequested || decide (t.streamHandle < 0))
  | _ => false

structure Quiet (t : StreamTask) : Prop where
  request : t.request = .done
    ∨ (t.request = .disposing ∨ t.request = .cancelling ∨ t.request = .stopping
        ∨ t.request = .loggingOut) ∧ t.streamHandle < 0 ∧ t.userId < 0
  monitor : t.watchQuiet = true

instance (t : StreamTask) : Decidable t.Quiet :=
  decidable_of_iff
    ((t.request = .done
      ∨ (t.request = .disposing ∨ t.request = .cancelling ∨ t.request = .stopping
          ∨ t.request = .loggingOut) ∧ t.streamHandle < 0 ∧ t.userId < 0) ∧ t.watchQuiet = true)
    ⟨fun h => ⟨h.1, h.2⟩, fun h => ⟨h.1, h.2⟩⟩

end StreamTask

namespace HttpBridgeServer

/--
A stream is stopped while its monitor is at no call, the monitor reads no handle between the stop and
the store that clears the field, and the SDK is cleaned up when nothing can start or call any more.
-/
def Orderly (w : HttpBridgeServer) (event : HttpBridgeEvent) : Prop :=
  match event with
  | .request id _ =>
    (w.tasks id).request = .stopping → 0 ≤ (w.tasks id).streamHandle →
      (w.tasks id).monitor.handle? = none
  | .monitor id _ => (w.tasks id).monitor.readsHandle = true → (w.tasks id).request ≠ .clearing
  | .dispose _ =>
    w.pc = .cleaningUp → w.accept = .ended ∧ ∀ id < w.requests, (w.tasks id).Quiet
  | _ => True

instance (w : HttpBridgeServer) (event : HttpBridgeEvent) : Decidable (w.Orderly event) :=
  match event with
  | .accept _ => inferInstanceAs (Decidable True)
  | .request id _ =>
    inferInstanceAs (Decidable ((w.tasks id).request = .stopping → 0 ≤ (w.tasks id).streamHandle →
      (w.tasks id).monitor.handle? = none))
  | .monitor id _ =>
    inferInstanceAs (Decidable ((w.tasks id).monitor.readsHandle = true →
      (w.tasks id).request ≠ .clearing))
  | .finish _ => inferInstanceAs (Decidable True)
  | .dispose _ =>
    inferInstanceAs (Decidable (w.pc = .cleaningUp → w.accept = .ended ∧
      ∀ id < w.requests, (w.tasks id).Quiet))

end HttpBridgeServer

section

variable {id : Nat} {calls : List NetDvrCall}

theorem callsOf_append (id : Nat) (calls more : List NetDvrCall)
    : callsOf id (calls ++ more) = callsOf id calls ++ callsOf id more :=
  List.filterMap_append

theorem callsOf_task (id : Nat) (call : Option SdkCall)
    : callsOf id (call.map (NetDvrCall.task id)).toList = call.toList := by
  cases call with
  | none => rfl
  | some call => simp [callsOf]

theorem callsOf_task_of_ne {other : Nat} (h : other ≠ id) (call : Option SdkCall)
    : callsOf id (call.map (NetDvrCall.task other)).toList = [] := by
  cases call with
  | none => rfl
  | some call => simp [callsOf, h]

theorem NoUseAfterRelease.append (h : NoUseAfterRelease calls) {call : NetDvrCall}
    (hcall : call.Allowed calls) : NoUseAfterRelease (calls ++ [call]) := by
  intro before other after heq
  rcases after.eq_nil_or_concat with hafter | ⟨after, last, hafter⟩
  . subst hafter
    obtain ⟨rfl, hlast⟩ := List.append_inj' heq rfl
    cases hlast
    exact hcall
  . subst hafter
    rw [List.concat_eq_append, ← List.cons_append, ← List.append_assoc] at heq
    exact h before other after (List.append_inj' heq rfl).1

end

namespace StreamTask

structure Owns (own : List SdkCall) (t : StreamTask) : Prop where
  stopped : ∀ option handle, .stopStream option handle ∈ own → 0 ≤ handle ∧
    (t.request = .clearing ∨ (t.request = .loggingOut ∨ t.request = .done) ∧ t.streamHandle < 0)
  held : ∀ handle, t.monitor.handle? = some handle → ∀ option, .stopStream option handle ∉ own
  loggedOut : ∀ user, .logout user ∈ own → t.request = .done

-- Nothing has been released.
def Unreleased (own : List SdkCall) : Prop :=
  (∀ option handle, .stopStream option handle ∉ own) ∧ ∀ user, .logout user ∉ own

section

variable {own : List SdkCall} {t t' : StreamTask} {call : Option SdkCall} {input : RequestInput}

theorem Unreleased.allowed (h : Unreleased own) (call : SdkCall) : call.Allowed own :=
  ⟨fun handle _ option => h.1 option handle, fun user _ => h.2 user⟩

theorem Unreleased.owns (h : Unreleased own) (t : StreamTask) : Owns own t :=
  ⟨fun option handle hmem => absurd hmem (h.1 option handle), fun handle _ option => h.1 option handle,
    fun user hmem => absurd hmem (h.2 user)⟩

theorem Owns.unreleased (h : Owns own t) (hinUse : t.request.inUse = true) : Unreleased own := by
  constructor
  . intro option handle hmem
    obtain ⟨_, hpc | ⟨hpc | hpc, _⟩⟩ := h.stopped option handle hmem
    all_goals
      rw [hpc] at hinUse
      contradiction
  . intro user hmem
    rw [h.loggedOut user hmem] at hinUse
    contradiction

theorem unreleased_requestStep (hinUse : t.request.inUse = true)
    (hstep : t.requestStep input = some (t', call)) : Unreleased call.toList := by
  unfold requestStep at hstep
  split at hstep
  . cases hstep
    exact ⟨by simp, by simp⟩
  . cases hpc : t.request with
    | disposing | cancelling | stopping | clearing | loggingOut | done =>
      rw [hpc] at hinUse
      contradiction
    | controlling calls =>
      cases calls with
      | zero =>
        simp only [hpc] at hstep
        cases hstep
        exact ⟨by simp, by simp⟩
      | succ calls =>
        simp only [hpc] at hstep
        cases hstep
        exact ⟨by simp, by simp⟩
    | _ =>
      simp only [hpc] at hstep
      cases hstep
      exact ⟨by simp, by simp⟩

theorem Unreleased.append {more : List SdkCall} (h : Unreleased own) (hmore : Unreleased more)
    : Unreleased (own ++ more) := by
  constructor
  . intro option handle hmem
    rcases List.mem_append.mp hmem with hmem | hmem
    . exact h.1 option handle hmem
    . exact hmore.1 option handle hmem
  . intro user hmem
    rcases List.mem_append.mp hmem with hmem | hmem
    . exact h.2 user hmem
    . exact hmore.2 user hmem

theorem Owns.unreleased_of_disposing (h : Owns own t)
    (hpc : t.request = .disposing ∨ t.request = .cancelling ∨ t.request = .stopping)
    : Unreleased own := by
  constructor
  . intro option handle hmem
    obtain ⟨_, hfree | ⟨hfree, _⟩⟩ := h.stopped option handle hmem
    all_goals
      rcases hpc with hpc | hpc | hpc <;> simp [hpc] at hfree
  . intro user hmem
    rw [h.loggedOut user hmem] at hpc
    simp at hpc

theorem Owns.stops (h : Owns own t) (hpc : t.request = .stopping)
    (horderly : 0 ≤ t.streamHandle → t.monitor.handle? = none)
    (hstep : t.requestStep input = some (t', call))
    : (∀ c, call = some c → c.Allowed own) ∧ Owns (own ++ call.toList) t' := by
  have hown := h.unreleased_of_disposing (.inr (.inr hpc))
  unfold requestStep at hstep
  rw [if_neg (by simp [hpc, RequestTaskPc.inUse])] at hstep
  simp only [hpc] at hstep
  split at hstep
  . next hhandle =>
    cases hstep
    refine ⟨fun c _ => hown.allowed c, ?_, ?_, ?_⟩
    . intro option handle hmem
      rcases List.mem_append.mp hmem with hmem | hmem
      . exact absurd hmem (hown.1 option handle)
      . simp at hmem
        exact ⟨by rw [hmem.2]; exact hhandle, .inl rfl⟩
    . intro handle hheld
      simp [horderly hhandle] at hheld
    . intro user hmem
      rcases List.mem_append.mp hmem with hmem | hmem
      . exact absurd hmem (hown.2 user)
      . simp at hmem
  . cases hstep
    rw [Option.toList_none, List.append_nil]
    exact ⟨fun c hc => (nomatch hc), hown.owns _⟩

theorem Owns.logsOut (h : Owns own t) (hpc : t.request = .loggingOut)
    (hstep : t.requestStep input = some (t', call))
    : (∀ c, call = some c → c.Allowed own) ∧ Owns (own ++ call.toList) t' := by
  have hno : ∀ user, .logout user ∉ own := by
    intro user hmem
    simpa [hpc] using h.loggedOut user hmem
  have hstopped : ∀ option handle, .stopStream option handle ∈ own →
      0 ≤ handle ∧ t.streamHandle < 0 := by
    intro option handle hmem
    obtain ⟨hhandle, hclear | ⟨_, hnone⟩⟩ := h.stopped option handle hmem
    . simp [hpc] at hclear
    . exact ⟨hhandle, hnone⟩
  unfold requestStep at hstep
  rw [if_neg (by simp [hpc, RequestTaskPc.inUse])] at hstep
  simp only [hpc] at hstep
  split at hstep
  . cases hstep
    refine ⟨?_, ?_, ?_, fun user hmem => rfl⟩
    . intro c hc
      cases hc
      exact ⟨fun handle hc => (nomatch hc), fun user _ => hno user⟩
    . intro option handle hmem
      rcases List.mem_append.mp hmem with hmem | hmem
      . obtain ⟨hhandle, hnone⟩ := hstopped option handle hmem
        exact ⟨hhandle, .inr ⟨.inr rfl, hnone⟩⟩
      . simp at hmem
    . intro handle hheld option hmem
      rcases List.mem_append.mp hmem with hmem | hmem
      . exact h.held handle hheld option hmem
      . simp at hmem
  . cases hstep
    rw [Option.toList_none, List.append_nil]
    refine ⟨fun c hc => (nomatch hc), ?_, h.held, fun user _ => rfl⟩
    intro option handle hmem
    obtain ⟨hhandle, hnone⟩ := hstopped option handle hmem
    exact ⟨hhandle, .inr ⟨.inr rfl, hnone⟩⟩

/--
`Dispose` stops the stream before it logs out, and clears the field in between.
-/
theorem owns_requestStep (h : Owns own t)
    (horderly : t.request = .stopping → 0 ≤ t.streamHandle → t.monitor.handle? = none)
    (hstep : t.requestStep input = some (t', call))
    : (∀ c, call = some c → c.Allowed own) ∧ Owns (own ++ call.toList) t' := by
  by_cases hinUse : t.request.inUse = true
  . have hown := h.unreleased hinUse
    exact ⟨fun c _ => hown.allowed c, (hown.append (unreleased_requestStep hinUse hstep)).owns t'⟩
  . cases hpc : t.request with
    | disposing | cancelling =>
      have hown := h.unreleased_of_disposing (by simp [hpc])
      unfold requestStep at hstep
      rw [if_neg (by simp [hinUse])] at hstep
      simp only [hpc] at hstep
      cases hstep
      rw [Option.toList_none, List.append_nil]
      exact ⟨fun c hc => (nomatch hc), hown.owns _⟩
    | stopping => exact h.stops hpc (horderly hpc) hstep
    | clearing =>
      unfold requestStep at hstep
      rw [if_neg (by simp [hinUse])] at hstep
      simp only [hpc] at hstep
      cases hstep
      rw [Option.toList_none, List.append_nil]
      refine ⟨fun c hc => (nomatch hc), ?_, h.held, ?_⟩
      . intro option handle hmem
        exact ⟨(h.stopped option handle hmem).1, .inr ⟨.inl rfl, Int.negSucc_lt_zero 0⟩⟩
      . intro user hmem
        simpa [hpc] using h.loggedOut user hmem
    | loggingOut => exact h.logsOut hpc hstep
    | done =>
      unfold requestStep at hstep
      rw [if_neg (by simp [hinUse])] at hstep
      simp only [hpc] at hstep
      contradiction
    | _ =>
      rw [hpc] at hinUse
      exact absurd rfl hinUse

theorem owns_monitorStep {input : MonitorInput} (h : Owns own t)
    (horderly : t.monitor.readsHandle = true → t.request ≠ .clearing)
    (hstep : t.monitorStep input = some (t', call))
    : (∀ c, call = some c → c.Allowed own) ∧ Owns (own ++ call.toList) t' := by
  -- Outside the window between the stop and the store a stopped handle is not in the field.
  have hread : t.monitor.readsHandle = true → ∀ option, .stopStream option t.streamHandle ∉ own := by
    intro hreads option hmem
    obtain ⟨hhandle, hpc | ⟨_, hnone⟩⟩ := h.stopped option _ hmem
    . exact horderly hreads hpc
    . omega
  have hkeep : ∀ c : Option SdkCall, Unreleased c.toList → ∀ s : StreamTask,
      s.request = t.request → s.streamHandle = t.streamHandle →
      (∀ handle, s.monitor.handle? = some handle → ∀ option, .stopStream option handle ∉ own) →
      Owns (own ++ c.toList) s := by
    intro c hc s hrequest hhandle hheld
    constructor
    . intro option handle hmem
      rcases List.mem_append.mp hmem with hmem | hmem
      . rw [hrequest, hhandle]
        exact h.stopped option handle hmem
      . exact absurd hmem (hc.1 option handle)
    . intro handle hs option hmem
      rcases List.mem_append.mp hmem with hmem | hmem
      . exact hheld handle hs option hmem
      . exact hc.1 option handle hmem
    . intro user hmem
      rcases List.mem_append.mp hmem with hmem | hmem
      . rw [hrequest]
        exact h.loggedOut user hmem
      . exact absurd hmem (hc.2 user)
  have hallowed : ∀ handle, t.monitor.handle? = some handle → (SdkCall.useHandle handle).Allowed own := by
    intro handle hheld
    refine ⟨?_, fun user hc => (nomatch hc)⟩
    intro other hother
    cases hother
    exact h.held handle hheld
  unfold monitorStep at hstep
  cases hpc : t.monitor with
  | notStarted | exited =>
    simp only [hpc] at hstep
    contradiction
  | loop | sleeping | keptAlive =>
    simp only [hpc] at hstep
    cases hstep
    refine ⟨fun c hc => (nomatch hc), hkeep none ⟨by simp, by simp⟩ _ rfl rfl ?_⟩
    intro handle hheld
    dsimp only at hheld
    repeat' split at hheld
    all_goals contradiction
  | keepAlive | position =>
    simp only [hpc] at hstep
    cases hstep
    refine ⟨fun c hc => (nomatch hc), hkeep none ⟨by simp, by simp⟩ _ rfl rfl ?_⟩
    intro handle hheld
    cases hheld
    exact hread (by rw [hpc]; rfl)
  | controlling handle | positioning handle =>
    simp only [hpc] at hstep
    cases hstep
    refine ⟨?_, hkeep (some _) ⟨by simp, by simp⟩ _ rfl rfl ?_⟩
    . intro c hc
      cases hc
      exact hallowed handle (by rw [hpc]; rfl)
    . intro other hheld
      dsimp only at hheld
      split at hheld
      all_goals contradiction
  | lastError =>
    simp only [hpc] at hstep
    cases hstep
    refine ⟨?_, hkeep (some _) ⟨by simp, by simp⟩ _ rfl rfl fun handle hheld => (nomatch hheld)⟩
    intro c hc
    cases hc
    exact ⟨fun handle hc => (nomatch hc), fun user hc => (nomatch hc)⟩

theorem Owns.finish (h : Owns own t) : Owns own { t with ended := true } :=
  ⟨h.stopped, h.held, h.loggedOut⟩

theorem Quiet.requestStep (h : t.Quiet) (hstep : t.requestStep input = some (t', call))
    : call = none ∧ t'.Quiet := by
  have hmonitor := h.monitor
  unfold StreamTask.requestStep at hstep
  rcases h.request with hpc | ⟨hpc | hpc | hpc | hpc, hhandle, huser⟩
  . simp [hpc, RequestTaskPc.inUse] at hstep
  . simp only [hpc, RequestTaskPc.inUse, Bool.false_and, Bool.false_eq_true, if_false] at hstep
    cases hstep
    refine ⟨rfl, ?_, hmonitor⟩
    dsimp only
    split
    . exact .inl rfl
    . exact .inr ⟨.inr (.inl rfl), hhandle, huser⟩
  . simp only [hpc, RequestTaskPc.inUse, Bool.false_and, Bool.false_eq_true, if_false] at hstep
    cases hstep
    refine ⟨rfl, .inr ⟨.inr (.inr (.inl rfl)), hhandle, huser⟩, ?_⟩
    unfold watchQuiet at hmonitor ⊢
    cases hwatch : t.monitor <;> simp_all
  . simp only [hpc, RequestTaskPc.inUse, Bool.false_and, Bool.false_eq_true, if_false,
      if_neg (Int.not_le.mpr hhandle)] at hstep
    cases hstep
    exact ⟨rfl, .inr ⟨.inr (.inr (.inr rfl)), hhandle, huser⟩, hmonitor⟩
  . simp only [hpc, RequestTaskPc.inUse, Bool.false_and, Bool.false_eq_true, if_false,
      if_neg (Int.not_le.mpr huser)] at hstep
    cases hstep
    exact ⟨rfl, .inl rfl, hmonitor⟩

theorem Quiet.monitorStep {input : MonitorInput} (h : t.Quiet)
    (hstep : t.monitorStep input = some (t', call)) : call = none ∧ t'.Quiet := by
  have hmonitor := h.monitor
  unfold watchQuiet at hmonitor
  unfold StreamTask.monitorStep at hstep
  cases hpc : t.monitor with
  | notStarted | exited =>
    simp only [hpc] at hstep
    contradiction
  | loop =>
    simp only [hpc] at hstep hmonitor
    cases hstep
    refine ⟨rfl, h.request, ?_⟩
    unfold watchQuiet
    by_cases hstop : t.stopRequested = true
    . simp [hstop]
    . simpa [hstop] using hmonitor
  | sleeping =>
    simp only [hpc, decide_eq_true_eq] at hstep hmonitor
    cases hstep
    refine ⟨rfl, h.request, ?_⟩
    unfold watchQuiet
    simp [hmonitor]
  | keptAlive positionDue =>
    simp only [hpc] at hstep hmonitor
    cases hstep
    refine ⟨rfl, h.request, ?_⟩
    unfold watchQuiet
    by_cases hended : t.ended = true
    . simp [hended]
    . cases positionDue with
      | true => simp [hended] at hmonitor
      | false => simpa [hended] using hmonitor
  | _ => simp [hpc] at hmonitor

theorem Quiet.finish (h : t.Quiet) : Quiet { t with ended := true } := by
  refine ⟨h.request, ?_⟩
  have hmonitor := h.monitor
  unfold watchQuiet at hmonitor ⊢
  cases hpc : t.monitor <;> simp_all

end

end StreamTask

end HikBridge
