import HikBridge.WindowsService.Basic

/-!
This module shows that the SCM sees the states of the service in their order, however its controls
meet the notifications of the bridge and the end of the bridge.
-/

namespace HikBridge

namespace Startup

variable (u : Startup)

theorem count_runWindowsProcess_le (result : ProbeResult)
    : (runWindowsProcess result).count .startProgress ≤ 1 := by
  unfold runWindowsProcess
  split
  . simp
  . simp

theorem count_testCandidates_le (candidates : List HardwareBackend)
    : (u.testCandidates candidates).count .startProgress ≤ candidates.length := by
  induction candidates with
  | nil => simp [testCandidates]
  | cons candidate rest ih =>
    unfold testCandidates
    split
    next =>
      rw [List.length_cons]
      omega
    next test _ =>
      have hle := count_runWindowsProcess_le test
      rw [List.length_cons]
      split
      next => omega
      next =>
        rw [List.count_append]
        omega

theorem length_candidates_le (requested : Bytes) : (candidates requested).length ≤ 3 := by
  unfold candidates
  repeat' split
  all_goals simp

theorem count_detect_le : u.detect.1.count .startProgress ≤ 6 := by
  have hsoftware := count_runWindowsProcess_le u.software
  have hhwaccels := count_runWindowsProcess_le u.hwaccels
  have hencoders := count_runWindowsProcess_le u.encoders
  have htests := u.count_testCandidates_le (candidates u.requested)
  have hlength := length_candidates_le u.requested
  unfold detect
  dsimp only
  repeat' split
  all_goals
    simp only [List.count_append]
    omega

/--
A startup sends one notification for the SDK and one for each FFmpeg process that it runs.
-/
theorem count_runServer_le : u.runServer.count .startProgress ≤ 7 := by
  have hdetect := u.count_detect_le
  unfold runServer
  split
  . simp
  . dsimp only
    split
    . simp only [List.count_append, List.count_cons]
      simp
      omega
    . simp only [List.count_cons]
      simp
      omega

end Startup

namespace WindowsService

inductive Middle : ServiceState → List ServiceCall → Prop where
  | starting : Middle .startPending []
  | running (st : ServiceStatus) (hst : st.currentState = .running)
      : Middle .running [.setServiceStatus st]
  | stopping (st sp : ServiceStatus) (hst : st.currentState = .running)
      (hsp : sp.currentState = .stopPending)
      : Middle .stopPending [.setServiceStatus st, .setServiceStatus sp, .stopCallback]

structure Starts (starts : List ServiceStatus) : Prop where
  ne_nil : starts ≠ []
  pending : ∀ st ∈ starts, st.currentState = .startPending
  increasing : starts.Pairwise fun st st' => st.checkPoint < st'.checkPoint

/--
What the SCM may see: the start, RUNNING if it comes that far, STOP_PENDING with the stop callback if
it was asked to stop while it was running, and STOPPED once the main function is left.
-/
def StatusProtocol (calls : List ServiceCall) (left : Prop) : Prop :=
  ∃ starts state middle last,
    calls = starts.map .setServiceStatus ++ middle ++ last
      ∧ Starts starts
      ∧ Middle state middle
      ∧ (left → ∃ st, st.currentState = .stopped ∧ last = [.setServiceStatus st])
      ∧ (¬ left → last = [])

structure Alive (s : WindowsService) : Prop where
  handle : s.statusHandle = true
  reports : ∃ starts middle,
    s.calls = starts.map .setServiceStatus ++ middle
      ∧ Starts starts
      ∧ Middle s.status.currentState middle
      ∧ (s.status.currentState = .startPending → ∀ st ∈ starts, st.checkPoint ≤ s.status.checkPoint)
  room : s.status.currentState = .startPending →
    s.status.checkPoint.toNat + s.notifications.count .startProgress < 2 ^ 32

structure Over (s : WindowsService) : Prop where
  handle : s.statusHandle = false
  reports : ∃ starts state middle,
    s.calls = starts.map .setServiceStatus ++ middle ++ [.setServiceStatus s.status]
      ∧ Starts starts
      ∧ Middle state middle
  stopped : s.status.currentState = .stopped
  worker : s.worker = .absent ∨ s.worker = .done

structure Silent (s : WindowsService) : Prop where
  handle : s.statusHandle = false
  status : s.status = {}
  worker : s.worker = .absent
  calls : s.calls = []
  room : s.notifications.count .startProgress + 1 < 2 ^ 32

def Registered (s : WindowsService) : Prop := s.main ≠ .entered ∧ s.main ≠ .refused

def InvAt (s : WindowsService) : ServiceMainPc → Prop
  | .entered | .refused => s.Silent
  | .registered => s.Alive ∧ s.worker = .absent
  | .watching | .joining | .terminated => s.Alive
  | .reporting => s.Alive ∧ (s.worker = .absent ∨ s.worker = .done)
  | .returned => s.Over

def Inv (s : WindowsService) : Prop := s.InvAt s.main

variable {s s' : WindowsService}

section Report

theorem Starts.snoc {starts : List ServiceStatus} (h : Starts starts) {st : ServiceStatus}
    (hst : st.currentState = .startPending) (hlast : ∀ st' ∈ starts, st'.checkPoint < st.checkPoint)
    : Starts (starts ++ [st]) where
  ne_nil := by simp
  pending := by
    intro st' hmem
    rcases List.mem_append.mp hmem with hmem | hmem
    . exact h.pending st' hmem
    . rw [List.mem_singleton.mp hmem]
      exact hst
  increasing := by
    rw [List.pairwise_append]
    refine ⟨h.increasing, by simp, ?_⟩
    intro st' hmem st'' hmem'
    rw [List.mem_singleton.mp hmem']
    exact hlast st' hmem

theorem checkPoint_add_one {n : Nat} {c : UInt32} (h : c.toNat + (n + 1) < 2 ^ 32)
    : c < c + 1 ∧ (c + 1).toNat = c.toNat + 1 := by
  have hnat : (c + 1).toNat = c.toNat + 1 := by
    rw [UInt32.toNat_add]
    apply Nat.mod_eq_of_lt
    simp only [UInt32.reduceToNat]
    omega
  refine ⟨?_, hnat⟩
  rw [UInt32.lt_iff_toNat_lt]
  omega

theorem Alive.frame (h : s.Alive) (s' : WindowsService) (hhandle : s'.statusHandle = s.statusHandle)
    (hstatus : s'.status = s.status) (hcalls : s'.calls = s.calls)
    (hnotes : s'.notifications.count .startProgress ≤ s.notifications.count .startProgress)
    : s'.Alive where
  handle := by rw [hhandle, h.handle]
  reports := by
    rw [hcalls, hstatus]
    exact h.reports
  room := by
    rw [hstatus]
    intro hstate
    have hroom := h.room hstate
    omega

theorem Alive.report_startPending {notifications : List Notification} (h : s.Alive)
    (hstate : s.status.currentState = .startPending)
    (hnotes : s.notifications = .startProgress :: notifications)
    : ({ s with notifications }.report .startPending 0).Alive := by
  obtain ⟨starts, middle, hcalls, hstarts, hmiddle, hlast⟩ := h.reports
  have hroom := h.room hstate
  rw [hnotes, List.count_cons_self] at hroom
  obtain ⟨hlt, hnat⟩ := checkPoint_add_one hroom
  rw [hstate] at hmiddle
  cases hmiddle
  refine ⟨h.handle, ⟨starts ++ [s.status.report .startPending 0], [], ?_, ?_, ?_, ?_⟩, ?_⟩
  . simp [report, hcalls]
  . apply hstarts.snoc rfl
    intro st hmem
    exact UInt32.lt_of_le_of_lt (hlast hstate st hmem) hlt
  . exact Middle.starting
  . intro _ st hmem
    rcases List.mem_append.mp hmem with hmem | hmem
    . exact UInt32.le_of_lt (UInt32.lt_of_le_of_lt (hlast hstate st hmem) hlt)
    . rw [List.mem_singleton.mp hmem]
      exact UInt32.le_refl _
  . intro _
    show (s.status.checkPoint + 1).toNat + notifications.count .startProgress < 2 ^ 32
    omega

theorem Alive.report_running (h : s.Alive) (hstate : s.status.currentState = .startPending)
    : (s.report .running 0).Alive := by
  obtain ⟨starts, middle, hcalls, hstarts, hmiddle, -⟩ := h.reports
  rw [hstate] at hmiddle
  cases hmiddle
  refine ⟨h.handle, ⟨starts, [.setServiceStatus (s.status.report .running 0)], ?_, hstarts, ?_, ?_⟩, ?_⟩
  . simp [report, hcalls]
  . exact Middle.running _ rfl
  . intro hne
    cases hne
  . intro hne
    cases hne

theorem Alive.stop (h : s.Alive) (hstate : s.status.currentState = .running) (tick : UInt64)
    : (s.stop tick).Alive := by
  obtain ⟨starts, middle, hcalls, hstarts, hmiddle, -⟩ := h.reports
  rw [hstate] at hmiddle
  cases hmiddle with
  | running st hst =>
    refine ⟨h.handle, ⟨starts,
      [.setServiceStatus st, .setServiceStatus (s.status.report .stopPending 0), .stopCallback],
      ?_, hstarts, ?_, ?_⟩, ?_⟩
    . simp [WindowsService.stop, report, hcalls]
    . exact Middle.stopping st _ hst rfl
    . intro hne
      cases hne
    . intro hne
      cases hne

theorem Silent.register (h : s.Silent)
    : ({ s with statusHandle := true }.report .startPending 0).Alive := by
  refine ⟨rfl, ⟨[s.status.report .startPending 0], [], ?_, ?_, Middle.starting, ?_⟩, ?_⟩
  . simp [report, h.calls]
  . exact ⟨by simp, by simp [ServiceStatus.report], by simp⟩
  . intro _ st hmem
    rw [List.mem_singleton.mp hmem]
    exact UInt32.le_refl _
  . intro _
    have hroom := h.room
    show (s.status.checkPoint + 1).toNat + s.notifications.count .startProgress < 2 ^ 32
    rw [h.status]
    show 1 + s.notifications.count .startProgress < 2 ^ 32
    omega

theorem Alive.over (h : s.Alive) (hworker : s.worker = .absent ∨ s.worker = .done)
    : { s.report .stopped s.resultCode.toUInt32 with
        statusHandle := false, main := .returned : WindowsService }.Over := by
  obtain ⟨starts, middle, hcalls, hstarts, hmiddle, -⟩ := h.reports
  exact ⟨rfl, ⟨starts, _, middle, by simp [report, hcalls], hstarts, hmiddle⟩, rfl, hworker⟩

end Report

section Step

inductive Moves (s : WindowsService) : ServiceEvent → WindowsService → Prop where
  | register (hmain : s.main = .entered)
    : Moves s (.register none)
        { { s with statusHandle := true }.report .startPending 0 with main := .registered }
  | refuse (error : Int32) (hmain : s.main = .entered)
    : Moves s (.register (some error)) { s with resultCode := error, main := .refused }
  | control (code : UInt32) (tick : UInt64) (hregistered : s.Registered) (hmain : s.main ≠ .terminated)
    : Moves s (.control code tick) (s.control code tick).2
  | start (hmain : s.main = .registered)
    : Moves s (.createThread true) { s with worker := .running, main := .watching }
  | noThread (hmain : s.main = .registered)
    : Moves s (.createThread false) { s with resultCode := 1, main := .reporting }
  | notify {notification : Notification} {notifications : List Notification}
    (hnotes : s.notifications = notification :: notifications) (hworker : s.worker = .running)
    (hmain : s.main ≠ .terminated) : Moves s .notify ({ s with notifications }.notified notification)
  | finish (result : Option Int32) (hworker : s.worker = .running) (hmain : s.main ≠ .terminated)
    : Moves s (.finish result) { s with resultCode := result.getD 1, worker := .finishing }
  | storeFinished (hworker : s.worker = .finishing) (hmain : s.main ≠ .terminated)
    : Moves s .storeFinished { s with finished := true, worker := .done }
  | seeFinished (tick : UInt64) (hmain : s.main = .watching) (hfinished : s.finished = true)
    : Moves s (.poll tick) { s with main := .joining }
  | terminate {tick : UInt64} (hmain : s.main = .watching) (hstarted : s.stopStarted ≠ 0)
    (hlate : tick - s.stopStarted ≥ 60000) : Moves s (.poll tick) { s with main := .terminated }
  | wait (tick : UInt64) (hmain : s.main = .watching) : Moves s (.poll tick) s
  | join (hmain : s.main = .joining) (hworker : s.worker = .done)
    : Moves s .join { s with main := .reporting }
  | reportStopped (hmain : s.main = .reporting)
    : Moves s .reportStopped
        { s.report .stopped s.resultCode.toUInt32 with statusHandle := false, main := .returned }

theorem moves_of_step {e : ServiceEvent} (hstep : step s e = some s') : Moves s e s' := by
  cases e with
  | register error =>
    simp only [step] at hstep
    split at hstep
    next hmain =>
      cases hstep
      exact .register hmain
    next hmain =>
      cases hstep
      exact .refuse _ hmain
    next => cases hstep
  | control code tick =>
    simp only [step] at hstep
    split at hstep
    next => cases hstep
    next hmain =>
      cases hstep
      simp only [Bool.or_eq_true, decide_eq_true_eq, not_or] at hmain
      exact .control code tick hmain.1 hmain.2
  | createThread created =>
    simp only [step] at hstep
    split at hstep
    next hmain =>
      cases created with
      | true =>
        cases hstep
        exact .start hmain
      | false =>
        cases hstep
        exact .noThread hmain
    next => cases hstep
  | notify =>
    simp only [step] at hstep
    split at hstep
    next => cases hstep
    next hnotes =>
      split at hstep
      next hcond =>
        cases hstep
        rw [Bool.and_eq_true, decide_eq_true_eq, decide_eq_true_eq] at hcond
        exact .notify hnotes hcond.1 hcond.2
      next => cases hstep
  | finish result =>
    simp only [step] at hstep
    split at hstep
    next hcond =>
      cases hstep
      rw [Bool.and_eq_true, decide_eq_true_eq, decide_eq_true_eq] at hcond
      exact .finish result hcond.1 hcond.2
    next => cases hstep
  | storeFinished =>
    simp only [step] at hstep
    split at hstep
    next hcond =>
      cases hstep
      rw [Bool.and_eq_true, decide_eq_true_eq, decide_eq_true_eq] at hcond
      exact .storeFinished hcond.1 hcond.2
    next => cases hstep
  | poll tick =>
    simp only [step] at hstep
    split at hstep
    next hmain =>
      split at hstep
      next hfinished =>
        cases hstep
        exact .seeFinished tick hmain hfinished
      next =>
        split at hstep
        next hlate =>
          cases hstep
          simp only [Bool.and_eq_true, decide_eq_true_eq] at hlate
          exact .terminate hmain hlate.1 hlate.2
        next =>
          cases hstep
          exact .wait tick hmain
    next => cases hstep
  | join =>
    simp only [step] at hstep
    split at hstep
    next hcond =>
      cases hstep
      rw [Bool.and_eq_true, decide_eq_true_eq, decide_eq_true_eq] at hcond
      exact .join hcond.1 hcond.2
    next => cases hstep
  | reportStopped =>
    simp only [step] at hstep
    split at hstep
    next hmain =>
      cases hstep
      exact .reportStopped hmain
    next => cases hstep

theorem control_cases (s : WindowsService) (code : UInt32) (tick : UInt64)
    : (s.control code tick).2 = s
        ∨ s.status.currentState = .running ∧ (s.control code tick).2 = s.stop tick := by
  unfold control
  split
  . split
    next hstate => exact .inr ⟨hstate, rfl⟩
    next => exact .inl rfl
  . split
    . exact .inl rfl
    . exact .inl rfl

theorem notified_cases (s : WindowsService) (notification : Notification)
    : s.notified notification = s
        ∨ s.status.currentState = .startPending
          ∧ s.notified notification = s.report notification.state 0 := by
  unfold notified
  split
  next hcond =>
    rw [Bool.and_eq_true, decide_eq_true_eq] at hcond
    exact .inr ⟨hcond.2, rfl⟩
  next => exact .inl rfl

theorem Alive.control (h : s.Alive) (code : UInt32) (tick : UInt64)
    : (s.control code tick).2.Alive := by
  rcases control_cases s code tick with hcontrol | ⟨hstate, hcontrol⟩
  . rw [hcontrol]
    exact h
  . rw [hcontrol]
    exact h.stop hstate tick

structure SameThreads (s s' : WindowsService) : Prop where
  main : s'.main = s.main
  worker : s'.worker = s.worker
  finished : s'.finished = s.finished

theorem control_threads (s : WindowsService) (code : UInt32) (tick : UInt64)
    : SameThreads s (s.control code tick).2 := by
  rcases control_cases s code tick with hcontrol | ⟨-, hcontrol⟩
  . rw [hcontrol]
    exact ⟨rfl, rfl, rfl⟩
  . rw [hcontrol]
    exact ⟨rfl, rfl, rfl⟩

theorem Alive.notified {notification : Notification} {notifications : List Notification}
    (h : s.Alive) (hnotes : s.notifications = notification :: notifications)
    : ({ s with notifications }.notified notification).Alive := by
  have hrest : { s with notifications : WindowsService }.Alive := by
    apply h.frame { s with notifications } rfl rfl rfl
    rw [hnotes]
    exact List.count_le_count_cons
  rcases notified_cases { s with notifications } notification with hsame | ⟨hstate, hreport⟩
  . rw [hsame]
    exact hrest
  . rw [hreport]
    cases notification with
    | startProgress => exact h.report_startPending hstate hnotes
    | ready => exact hrest.report_running hstate

theorem notified_threads (s : WindowsService) (notification : Notification)
    : SameThreads s (s.notified notification) := by
  rcases notified_cases s notification with hsame | ⟨-, hreport⟩
  . rw [hsame]
    exact ⟨rfl, rfl, rfl⟩
  . rw [hreport]
    exact ⟨rfl, rfl, rfl⟩

theorem Over.control (h : s.Over) (code : UInt32) (tick : UInt64) : (s.control code tick).2.Over := by
  rcases control_cases s code tick with hcontrol | ⟨hstate, -⟩
  . rw [hcontrol]
    exact h
  . rw [h.stopped] at hstate
    cases hstate

theorem Inv.of_same_threads (h : Inv s) (halive : s.Alive → s'.Alive) (hover : s.Over → s'.Over)
    (hregistered : s.Registered) (hthreads : SameThreads s s') : Inv s' := by
  obtain ⟨hentered, hrefused⟩ := hregistered
  unfold Inv at h ⊢
  rw [hthreads.main]
  cases hpc : s.main with
  | entered => exact absurd hpc hentered
  | refused => exact absurd hpc hrefused
  | registered =>
    rw [hpc] at h
    exact ⟨halive h.1, hthreads.worker.trans h.2⟩
  | reporting =>
    rw [hpc] at h
    refine ⟨halive h.1, ?_⟩
    rw [hthreads.worker]
    exact h.2
  | returned =>
    rw [hpc] at h
    exact hover h
  | _ =>
    rw [hpc] at h
    exact halive h

theorem Inv.waits (h : Inv s) (hworker : s.worker = .running ∨ s.worker = .finishing)
    (hmain : s.main ≠ .terminated) : s.Alive ∧ (s.main = .watching ∨ s.main = .joining) := by
  have hne : ¬ (s.worker = .absent ∨ s.worker = .done) := by
    rcases hworker with hworker | hworker
    . simp [hworker]
    . simp [hworker]
  unfold Inv at h
  cases hpc : s.main with
  | watching =>
    rw [hpc] at h
    exact ⟨h, .inl rfl⟩
  | joining =>
    rw [hpc] at h
    exact ⟨h, .inr rfl⟩
  | terminated => exact absurd hpc hmain
  | registered =>
    rw [hpc] at h
    exact absurd (.inl h.2) hne
  | reporting =>
    rw [hpc] at h
    exact absurd h.2 hne
  | returned =>
    rw [hpc] at h
    exact absurd h.worker hne
  | _ =>
    rw [hpc] at h
    exact absurd (.inl h.worker) hne

theorem inv_of_waits (h : s.Alive) (hmain : s.main = .watching ∨ s.main = .joining) : Inv s := by
  unfold Inv
  rcases hmain with hmain | hmain
  . rw [hmain]
    exact h
  . rw [hmain]
    exact h

theorem inv_step (s : WindowsService) (e : ServiceEvent) (s' : WindowsService) (h : Inv s)
    (hstep : step s e = some s') : Inv s' := by
  cases moves_of_step hstep with
  | register hmain =>
    rw [Inv, hmain] at h
    exact ⟨(Silent.register h).frame _ rfl rfl rfl le_rfl, h.worker⟩
  | refuse error hmain =>
    rw [Inv, hmain] at h
    exact ⟨h.handle, h.status, h.worker, h.calls, h.room⟩
  | control code tick hregistered hmain =>
    apply h.of_same_threads
    . intro halive
      exact halive.control code tick
    . intro hover
      exact hover.control code tick
    . exact hregistered
    . exact control_threads s code tick
  | start hmain =>
    rw [Inv, hmain] at h
    exact h.1.frame _ rfl rfl rfl le_rfl
  | noThread hmain =>
    rw [Inv, hmain] at h
    exact ⟨h.1.frame _ rfl rfl rfl le_rfl, .inl h.2⟩
  | @notify notification notifications hnotes hworker hmain =>
    obtain ⟨halive, hwaits⟩ := h.waits (.inl hworker) hmain
    apply inv_of_waits (halive.notified hnotes)
    rw [(notified_threads _ notification).main]
    exact hwaits
  | finish result hworker hmain =>
    obtain ⟨halive, hwaits⟩ := h.waits (.inl hworker) hmain
    exact inv_of_waits (halive.frame _ rfl rfl rfl le_rfl) hwaits
  | storeFinished hworker hmain =>
    obtain ⟨halive, hwaits⟩ := h.waits (.inr hworker) hmain
    exact inv_of_waits (halive.frame _ rfl rfl rfl le_rfl) hwaits
  | seeFinished tick hmain hfinished =>
    rw [Inv, hmain] at h
    exact Alive.frame h _ rfl rfl rfl le_rfl
  | terminate hmain hstarted hlate =>
    rw [Inv, hmain] at h
    exact Alive.frame h _ rfl rfl rfl le_rfl
  | wait tick hmain => exact h
  | join hmain hworker =>
    rw [Inv, hmain] at h
    exact ⟨Alive.frame h _ rfl rfl rfl le_rfl, .inr hworker⟩
  | reportStopped hmain =>
    rw [Inv, hmain] at h
    exact h.1.over h.2

structure Threads (s : WindowsService) : Prop where
  started : s.main = .watching → s.worker ≠ .absent
  finished : s.finished = true ↔ s.worker = .done
  joining : s.main = .joining → s.finished = true
  absent : s.main = .registered ∨ s.main = .entered → s.worker = .absent

theorem Threads.of_same_threads (h : s.Threads) (hthreads : SameThreads s s') : s'.Threads := by
  obtain ⟨hmain, hworker, hfinished⟩ := hthreads
  constructor
  . rw [hmain, hworker]
    exact h.started
  . rw [hworker, hfinished]
    exact h.finished
  . rw [hmain, hfinished]
    exact h.joining
  . rw [hmain, hworker]
    exact h.absent

theorem threads_step (s : WindowsService) (e : ServiceEvent) (s' : WindowsService) (h : s.Threads)
    (hstep : step s e = some s') : s'.Threads := by
  obtain ⟨hstarted, hfinished, hjoining, habsent⟩ := h
  cases moves_of_step hstep with
  | register hmain => exact ⟨by simp, hfinished, by simp, fun _ => habsent (.inr hmain)⟩
  | refuse error hmain => exact ⟨by simp, hfinished, by simp, by simp⟩
  | control code tick hregistered hmain =>
    exact Threads.of_same_threads ⟨hstarted, hfinished, hjoining, habsent⟩ (control_threads s code tick)
  | start hmain =>
    rw [habsent (.inl hmain)] at hfinished
    exact ⟨by simp, by simpa using hfinished, by simp, by simp⟩
  | noThread hmain => exact ⟨by simp, hfinished, by simp, by simp⟩
  | @notify notification notifications hnotes hworker hmain =>
    have hrest : Threads { s with notifications } := ⟨hstarted, hfinished, hjoining, habsent⟩
    exact hrest.of_same_threads (notified_threads _ notification)
  | finish result hworker hmain =>
    rw [hworker] at hfinished habsent
    exact ⟨by simp, by simpa using hfinished, hjoining, fun hmain => by cases habsent hmain⟩
  | storeFinished hworker hmain =>
    rw [hworker] at habsent
    exact ⟨by simp, by simp, by simp, fun hmain => by cases habsent hmain⟩
  | seeFinished tick hmain hdone => exact ⟨by simp, hfinished, fun _ => hdone, by simp⟩
  | terminate hmain hstop hlate => exact ⟨by simp, hfinished, by simp, by simp⟩
  | wait tick hmain => exact ⟨hstarted, hfinished, hjoining, habsent⟩
  | join hmain hworker => exact ⟨by simp, hfinished, by simp, by simp⟩
  | reportStopped hmain => exact ⟨by simp, hfinished, by simp, by simp⟩

def CanReturn (s : WindowsService) : Prop :=
  ∃ es s', Machine.run step s es = some s' ∧ s'.main = .returned

theorem CanReturn.of_step {e : ServiceEvent} (hstep : step s e = some s') (h : s'.CanReturn)
    : s.CanReturn := by
  obtain ⟨es, s'', hrun, hmain⟩ := h
  exact ⟨e :: es, s'', by simp [Machine.run_cons, hstep, hrun], hmain⟩

theorem canReturn_reporting (hmain : s.main = .reporting) : s.CanReturn := by
  apply CanReturn.of_step (e := .reportStopped)
  . rw [step, if_pos hmain]
  . exact ⟨[], _, rfl, rfl⟩

theorem canReturn_joining (hmain : s.main = .joining) (hworker : s.worker = .done) : s.CanReturn := by
  apply CanReturn.of_step (e := .join)
  . rw [step, if_pos (by simp [hmain, hworker])]
  . exact canReturn_reporting rfl

theorem canReturn_done (hmain : s.main = .watching) (hworker : s.worker = .done)
    (hfinished : s.finished = true) : s.CanReturn := by
  apply CanReturn.of_step (e := .poll 0)
  . rw [step, if_pos hmain, if_pos hfinished]
  . exact canReturn_joining rfl hworker

theorem canReturn_finishing (hmain : s.main = .watching) (hworker : s.worker = .finishing)
    : s.CanReturn := by
  apply CanReturn.of_step (e := .storeFinished)
  . rw [step, if_pos (by simp [hmain, hworker])]
  . exact canReturn_done hmain rfl rfl

theorem canReturn_running (hmain : s.main = .watching) (hworker : s.worker = .running)
    : s.CanReturn := by
  apply CanReturn.of_step (e := .finish none)
  . rw [step, if_pos (by simp [hmain, hworker])]
  . exact canReturn_finishing hmain rfl

/--
No interleaving keeps the main function from its end but that of the watchdog.
-/
theorem Threads.canReturn (h : s.Threads) (hregistered : s.Registered) (hmain : s.main ≠ .terminated)
    : s.CanReturn := by
  obtain ⟨hentered, hrefused⟩ := hregistered
  cases hpc : s.main with
  | entered => exact absurd hpc hentered
  | refused => exact absurd hpc hrefused
  | terminated => exact absurd hpc hmain
  | registered =>
    apply CanReturn.of_step (e := .createThread false)
    . rw [step, if_pos hpc, if_neg (by simp)]
    . exact canReturn_reporting rfl
  | watching =>
    cases hworker : s.worker with
    | absent => exact absurd hworker (h.started hpc)
    | running => exact canReturn_running hpc hworker
    | finishing => exact canReturn_finishing hpc hworker
    | done => exact canReturn_done hpc hworker (h.finished.mpr hworker)
  | joining => exact canReturn_joining hpc (h.finished.mp (h.joining hpc))
  | reporting => exact canReturn_reporting hpc
  | returned => exact ⟨[], s, rfl, hpc⟩

end Step

section Run

variable {notifications : List Notification} {es : List ServiceEvent}

theorem inv_create (h : notifications.count .startProgress + 1 < 2 ^ 32)
    : Inv (create notifications) :=
  ⟨rfl, rfl, rfl, rfl, h⟩

theorem inv_of_run (h : notifications.count .startProgress + 1 < 2 ^ 32)
    (hrun : Machine.run step (create notifications) es = some s) : Inv s :=
  Machine.run_invariant inv_step (inv_create h) hrun

theorem threads_of_run (hrun : Machine.run step (create notifications) es = some s) : s.Threads :=
  Machine.run_invariant threads_step ⟨by simp [create], by simp [create], by simp [create], fun _ => rfl⟩ hrun

theorem Alive.statusProtocol (h : s.Alive) : StatusProtocol s.calls False := by
  obtain ⟨starts, middle, hcalls, hstarts, hmiddle, -⟩ := h.reports
  exact ⟨starts, _, middle, [], by simp [hcalls], hstarts, hmiddle, False.elim, fun _ => rfl⟩

theorem Over.statusProtocol (h : s.Over) : StatusProtocol s.calls True := by
  obtain ⟨starts, state, middle, hcalls, hstarts, hmiddle⟩ := h.reports
  exact ⟨starts, state, middle, _, hcalls, hstarts, hmiddle,
    fun _ => ⟨s.status, h.stopped, rfl⟩, fun hn => absurd trivial hn⟩

theorem Inv.statusProtocol (h : Inv s) (hregistered : s.Registered)
    : StatusProtocol s.calls (s.main = .returned) := by
  obtain ⟨hentered, hrefused⟩ := hregistered
  unfold Inv at h
  cases hpc : s.main with
  | entered => exact absurd hpc hentered
  | refused => exact absurd hpc hrefused
  | returned =>
    rw [hpc] at h
    simpa using Over.statusProtocol h
  | registered =>
    rw [hpc] at h
    simpa using h.1.statusProtocol
  | reporting =>
    rw [hpc] at h
    simpa using h.1.statusProtocol
  | _ =>
    rw [hpc] at h
    simpa using Alive.statusProtocol h

/--
The checkpoint is a DWORD: it would wrap after as many start notifications as the hypothesis
excludes. `Startup.count_runServer_le` shows that the bridge sends seven at most.
-/
theorem statusProtocol_of_run (hnotes : notifications.count .startProgress + 1 < 2 ^ 32)
    (hrun : Machine.run step (create notifications) es = some s) (hregistered : s.Registered)
    : StatusProtocol s.calls (s.main = .returned) ∧ (s.main ≠ .terminated → s.CanReturn) := by
  constructor
  . exact (inv_of_run hnotes hrun).statusProtocol hregistered
  . exact (threads_of_run hrun).canReturn hregistered

def plainStartup : Startup where
  initialized := true
  requested := Bytes.lit "off"
  software := ⟨true, true⟩
  hwaccels := ⟨true, true⟩
  encoders := ⟨true, true⟩
  test := fun _ => none
  listening := true

def plainEvents : List ServiceEvent :=
  [.register none, .createThread true, .notify, .control 1 7, .notify, .notify, .control 1 9,
    .control 5 10, .finish (some 0), .storeFinished, .poll 20, .join, .reportStopped, .control 1 21]

theorem statusProtocol_plainEvents
    : ∃ s, Machine.run step (create plainStartup.runServer) plainEvents = some s
        ∧ s.calls.length = 7
        ∧ StatusProtocol s.calls (s.main = .returned) ∧ (s.main ≠ .terminated → s.CanReturn) := by
  have hnotes : plainStartup.runServer.count .startProgress + 1 < 2 ^ 32 := by decide
  obtain ⟨s, hrun, hlength, hmain⟩ : ∃ s,
      Machine.run step (create plainStartup.runServer) plainEvents = some s
        ∧ s.calls.length = 7 ∧ s.main = .returned := ⟨_, rfl, rfl, rfl⟩
  exact ⟨s, hrun, hlength, statusProtocol_of_run hnotes hrun ⟨by simp [hmain], by simp [hmain]⟩⟩

end Run

end WindowsService

end HikBridge
