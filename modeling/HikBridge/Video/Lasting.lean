import HikBridge.Video.Stages

/-!
This module contains what the handler does not change about its processes while it builds, stops and
releases objects: what has been read from them and how they were started.
-/

namespace HikBridge.Pipeline

variable {v : Setting} {α : Type} {P : Heap → Prop} {id : Nat} {s : Slot}

structure Lasting (P : Heap → Prop) : Prop where
  undefined : ∀ h, P h → P { h with undefined := true }
  setSlot : ∀ s value h, P h → P (h.setSlot s value)
  setSession : ∀ value h, P h → P { h with session := value }
  sessions : ∀ fresh sessions sdk h, P h → P { h with fresh, sessions, sdk }
  mapProcess : ∀ id (f : FfmpegProcess → FfmpegProcess),
    (∀ p, (f p).output = p.output ∧ (f p).eof = p.eof ∧ (f p).outputMode = p.outputMode) →
    ∀ h, P h → P (h.mapProcess id f)
  freeProcess : ∀ id h, P h → P (h.freeProcess id)

theorem stays_currentHeap : Stays P currentHeap := by
  apply Program.keeps_bind Program.keeps_inspect
  intro _
  exact Program.keeps_pure

section Pointers

variable (hundefined : ∀ h, P h → P { h with undefined := true })

include hundefined

theorem stays_undefinedBehavior : Stays P (undefinedBehavior : Program Pipeline Tick Exn α) := by
  apply stays_bind (stays_updateHeap hundefined)
  intro _
  exact Program.keeps_terminate

theorem stays_sessionAt : Stays P (sessionAt id) := by
  apply stays_bind stays_currentHeap
  intro h
  cases h.sessions.find? fun session => session.id = id with
  | some session => exact stays_pure
  | none => exact stays_undefinedBehavior hundefined

theorem stays_processAt : Stays P (processAt id) := by
  apply stays_bind stays_currentHeap
  intro h
  cases h.processes.find? fun process => process.id = id with
  | some process => exact stays_pure
  | none => exact stays_undefinedBehavior hundefined

theorem stays_derefSession : Stays P derefSession := by
  apply stays_bind stays_currentHeap
  intro h
  cases h.session with
  | some id => exact stays_sessionAt hundefined
  | none => exact stays_undefinedBehavior hundefined

theorem stays_deref : Stays P (deref s) := by
  apply stays_bind stays_currentHeap
  intro h
  cases h.slot s with
  | some id => exact stays_processAt hundefined
  | none => exact stays_undefinedBehavior hundefined

theorem stays_readUntilReady (hmap : ∀ id f h, P h → P (h.mapProcess id f)) {result : Bytes}
    {requireMediaFragment : Bool} : Stays P (readUntilReady v s result requireMediaFragment) := by
  have hreceived : ∀ id data, Stays P (received id data) :=
    fun id data => stays_bind (stays_updateHeap (hmap id _)) fun _ => stays_pure
  have hlinux : ∀ id size, Stays P (readOutputLinux id size) := by
    intro id size
    apply stays_env
    intro ready
    apply stays_ite stays_pure
    apply stays_env
    intro answer
    exact stays_ite stays_pure (hreceived _ _)
  have hwindows : ∀ id size, Stays P (readOutputWindows v id size) := by
    intro id size
    apply stays_iterate
    intro _
    apply stays_env
    intro clock
    apply stays_ite stays_pure
    iterate 2
      apply stays_env
      intro _
    apply stays_env
    intro answer
    apply stays_ite (stays_bind (hreceived _ _) fun _ => stays_pure)
    apply stays_env
    intro exited
    exact stays_ite (stays_bind (hreceived _ _) fun _ => stays_pure) stays_pure
  apply stays_bind (stays_deref hundefined)
  intro process
  apply stays_bind
  . apply stays_iterate
    intro now
    apply stays_env
    intro clock
    apply stays_ite stays_pure
    iterate 2
      apply stays_env
      intro _
    apply stays_bind (stays_ite (hwindows _ _) (hlinux _ _))
    intro readSize
    cases readSize with
    | none => exact stays_pure
    | some data =>
      cases data with
      | nil => exact stays_pure
      | cons byte data => exact stays_ite stays_pure stays_pure
  . intro (ready, output)
    exact stays_ite stays_pure (stays_ite stays_raise stays_raise)

end Pointers

namespace Lasting

variable (hP : Lasting P)

include hP

theorem steady : Steady id P where
  sessionAt := stays_sessionAt hP.undefined
  monitorsCall _ h := hP.sessions _ _ _ h
  recordSdk _ h := hP.sessions _ _ _ h
  mapSession _ _ h := hP.sessions _ _ _ h

theorem destroySession : Stays P (destroySession v id) :=
  stays_destroySession hP.steady fun h => hP.sessions _ _ _ h

theorem resetSession : Stays P (resetSession v) := by
  apply stays_bind stays_currentHeap
  intro h
  cases h.session with
  | none => exact stays_pure
  | some id =>
    apply stays_bind (stays_updateHeap (hP.setSession none))
    intro _
    exact hP.destroySession

theorem openSession : Stays P (openSession v) := by
  apply stays_bind
  . apply stays_bind
    . apply stays_env
      intro _
      apply stays_bind stays_currentHeap
      intro h
      apply stays_bind (stays_updateHeap fun h => hP.sessions _ _ _ h)
      intro _
      apply stays_env
      intro _
      exact stays_pure
    intro id
    apply stays_bind stays_currentHeap
    intro h
    apply stays_bind (stays_updateHeap (hP.setSession (some id)))
    intro _
    cases h.session with
    | none => exact stays_pure
    | some old => exact hP.destroySession
  intro _
  apply stays_bind (stays_derefSession hP.undefined)
  intro session
  exact stays_prepare hP.steady

theorem restartSession : Stays P (restartSession v) :=
  stays_bind hP.resetSession fun _ => hP.openSession

theorem start : Stays P (start v) := by
  apply stays_bind (stays_derefSession hP.undefined)
  intro session
  apply stays_bind (stays_prepare hP.steady)
  intro _
  exact stays_startStreamAndWaitForData hP.steady

theorem stopProcess : Stays P (stopProcess id) := by
  apply stays_env
  intro _
  apply stays_bind (stays_processAt hP.undefined)
  intro process
  apply stays_ite stays_pure
  iterate 3
    apply stays_bind
    . exact stays_updateHeap (hP.mapProcess id _ fun _ => ⟨rfl, rfl, rfl⟩)
    intro _
    apply stays_env
    intro _
  exact stays_pure

theorem destroyProcess : Stays P (destroyProcess id) := by
  apply stays_bind hP.stopProcess
  intro _
  apply stays_env
  intro _
  exact stays_updateHeap (hP.freeProcess id)

theorem resetProcess : Stays P (resetProcess s) := by
  apply stays_bind stays_currentHeap
  intro h
  cases h.slot s with
  | none => exact stays_pure
  | some id =>
    apply stays_bind (stays_updateHeap (hP.setSlot s none))
    intro _
    exact hP.destroyProcess

theorem stopAndReset : Stays P (stopAndReset s) := by
  apply stays_bind
  . apply stays_bind (stays_deref hP.undefined)
    intro process
    exact hP.stopProcess
  . intro _
    exact hP.resetProcess

theorem stopFailedCopy : Stays P (stopFailedCopy v) := by
  apply stays_bind (stays_deref hP.undefined)
  intro _
  apply stays_env
  intro _
  exact hP.stopAndReset

theorem ensureSession : Stays P (ensureSession v) := by
  apply stays_bind stays_currentHeap
  intro h
  apply stays_bind (stays_ite hP.openSession stays_pure)
  intro _
  apply stays_bind (stays_derefSession hP.undefined)
  intro session
  exact stays_ite stays_pure hP.start

theorem startPump : Stays P (startPump s) := by
  apply stays_bind (stays_derefSession hP.undefined)
  intro session
  apply stays_bind (stays_deref hP.undefined)
  intro process
  apply stays_env
  intro _
  cases process.pump with
  | some _ => exact Program.keeps_terminate
  | none => exact stays_updateHeap (hP.mapProcess _ _ fun _ => ⟨rfl, rfl, rfl⟩)

theorem makeProcess {mode : VideoOutputMode} {forceSoftware : Bool}
    (hnew : ∀ hardwareEnabled h, P h → P (h.newProcess mode hardwareEnabled))
    : Stays P (makeProcess v s mode forceSoftware) := by
  apply stays_bind
  . apply stays_env
    intro _
    apply stays_bind stays_currentHeap
    intro h
    apply stays_bind (stays_updateHeap (hnew _))
    intro _
    apply stays_bind
    . apply stays_rescue
      . apply stays_env
        intro _
        apply stays_rescue
        . apply stays_env
          intro _
          apply stays_bind
          . exact stays_updateHeap (hP.mapProcess _ _ fun _ => ⟨rfl, rfl, rfl⟩)
          intro _
          apply stays_env
          intro _
          exact stays_onEnv
        . intro e
          apply stays_bind hP.stopProcess
          intro _
          exact stays_raise
      . intro e
        apply stays_bind (stays_updateHeap (hP.freeProcess _))
        intro _
        exact stays_raise
    . intro _
      exact stays_pure
  intro id
  apply stays_bind stays_currentHeap
  intro h
  apply stays_bind (stays_updateHeap (hP.setSlot s (some id)))
  intro _
  cases h.slot s with
  | none => exact stays_pure
  | some old => exact hP.destroyProcess

end Lasting

end HikBridge.Pipeline
