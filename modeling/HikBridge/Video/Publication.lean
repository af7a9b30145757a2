import HikBridge.Video.Transmission

/-!
This module contains the publication of the end of a session: what one call of `publish_status` hands
to `set_ended`, and that it hands over nothing once the end is published.
-/

namespace HikBridge

/--
What the record of a call of `publish_status` with `reason` says. A lease that is cancelled when the
call starts leaves only `ManualCleanup`, which stands for nothing else.
-/
structure EndRecord.Says (r : EndRecord) (sid : Bytes) (reason : StreamEndReason) : Prop where
  sid : r.sid = sid
  message : r.message = endReasonMessage r.reason
  lease : r.lease = .held
  cleanup : r.cancelledAtStart = true → r.reason = .ManualCleanup
  reason : (r.reason = .ManualCleanup ∧ r.cancelledAtCall = true) ∨ r.reason = reason

-- What a record says that was published with another reason than these two.
theorem EndRecord.Says.reason_ne {sid : Bytes} {r : EndRecord} {reason : StreamEndReason} (hr : r.Says sid reason)
    (hne : reason ≠ .Active) : r.reason ≠ .Active := by
  rcases hr.reason with hmanual | heq
  . rw [hmanual.1]
    decide
  . rw [heq]
    exact hne

theorem EndRecord.Says.cancelled_of_manual {sid : Bytes} {r : EndRecord} {reason : StreamEndReason}
    (hr : r.Says sid reason) (hne : reason ≠ .ManualCleanup) (hmanual : r.reason = .ManualCleanup)
    : r.cancelledAtCall = true := by
  rcases hr.reason with hcleanup | heq
  . exact hcleanup.2
  . exact absurd (heq.symm.trans hmanual) hne

namespace Pipeline

variable {I : Env → Prop}

theorem keeps_currentHeap : Program.Keeps (fun p : Pipeline => I p.env) currentHeap := by
  apply Program.keeps_bind Program.keeps_inspect
  intro _
  exact Program.keeps_pure

theorem keeps_undefinedBehavior {α : Type}
    : Program.Keeps (fun p : Pipeline => I p.env)
        (undefinedBehavior : Program Pipeline Tick Exn α) := by
  apply Program.keeps_bind
  . apply Program.keeps_update
    exact fun _ hp => hp
  . intro _
    exact Program.keeps_terminate

theorem keeps_sessionAt {id : Nat} : Program.Keeps (fun p : Pipeline => I p.env) (sessionAt id) := by
  apply Program.keeps_bind keeps_currentHeap
  intro h
  cases h.sessions.find? fun session => session.id = id with
  | some session => exact Program.keeps_pure
  | none => exact keeps_undefinedBehavior

theorem keeps_derefSession : Program.Keeps (fun p : Pipeline => I p.env) derefSession := by
  apply Program.keeps_bind keeps_currentHeap
  intro h
  cases h.session with
  | some id => exact keeps_sessionAt
  | none => exact keeps_undefinedBehavior

theorem keeps_queueNumber (hI : Stable I)
    : Program.Keeps (fun p : Pipeline => I p.env) World.queueNumber := by
  apply Program.keeps_bind keeps_currentHeap
  intro h
  apply Program.keeps_ite
  . apply Program.keeps_bind keeps_derefSession
    intro _
    apply Program.keeps_bind
    . apply (Program.triple_zoom (p := envPart) (F := fun _ => True) (keeps_observe hI)
        fun _ _ hp => hp).conseq
      . exact fun _ hp => ⟨hp, trivial⟩
      . exact fun _ _ hp => hp.1
      . exact fun _ _ hp => hp.1
      . exact fun _ hp => hp.1
    . intro answer
      exact Program.keeps_pure
  . exact Program.keeps_pure

end Pipeline

namespace World

open Pipeline

variable {v : Setting} {α : Type} {P : World → Prop} {H : Heap → Prop} {F : World → Prop}
  {I : Env → Prop}

def Unpublished (w : World) : Prop := w.statusPublished = false ∧ w.ends = []

def Published (sid : Bytes) (reason : StreamEndReason) (w : World) : Prop :=
  w.statusPublished = true ∧ ∃ r, w.ends = [r] ∧ r.Says sid reason

-- The assertion is about the socket, the lease and the handled exception only.
def Apart (F : World → Prop) : Prop :=
  ∀ w w', w'.wire = w.wire → w'.headers = w.headers → w'.lease = w.lease →
    w'.handled = w.handled → F w → F w'

def HasSession (H : Heap → Prop) : Prop :=
  ∀ h, H h → h.session = none ∨
    ∃ id process owners, owners.session = some id ∧ h.Holds (some id) process owners

theorem keeps_onEnv {m : Program Env Tick Exn α} (hP : ∀ env w, P w → P { w with env })
    : Program.Keeps P (onEnv m) :=
  Program.keeps_zoom hP

theorem triple_onEnv_noexcept {m : Program Env Tick Exn α} {E : Exn → World → Prop}
    (hm : Program.NeverRaises m) (hP : ∀ env w, P w → P { w with env })
    : Program.Triple P (onEnv m) (fun _ => P) E P := by
  apply (Program.triple_zoom (p := envPart) (F := P) hm hP).conseq
  . exact fun _ hw => ⟨trivial, hw⟩
  . exact fun _ _ hw => hw.2
  . exact fun _ _ hw => hw.1.elim
  . exact fun _ hw => hw.2

theorem triple_onPipeline {m : Program Pipeline Tick Exn α} {Q : α → Heap → Prop}
    {E : Exn → Heap → Prop} {C : Heap → Prop} (h : Does H m Q E C)
    (hF : ∀ (p : Pipeline) w, F w → F { w with env := p.env, heap := p.heap })
    : Program.Triple (fun w => H w.heap ∧ F w) (onPipeline m) (fun a w => Q a w.heap ∧ F w)
        (fun e w => E e w.heap ∧ F w) (fun w => C w.heap ∧ F w) :=
  Program.triple_zoom (p := pipelinePart) h hF

theorem keeps_onEnv_stable {m : Program Env Tick Exn α}
    (hm : Program.Keeps I m)
    : Program.Keeps (fun w => I w.env) (onEnv m) := by
  apply (Program.triple_zoom (p := envPart) (F := fun _ => True) hm fun _ _ hw => hw).conseq
  . exact fun _ hw => ⟨hw, trivial⟩
  . exact fun _ _ hw => hw.1
  . exact fun _ _ hw => hw.1
  . exact fun _ hw => hw.1

theorem keeps_onPipeline_stable {m : Program Pipeline Tick Exn α}
    (hm : Program.Keeps (fun p : Pipeline => I p.env) m)
    : Program.Keeps (fun w => I w.env) (onPipeline m) := by
  apply (Program.triple_zoom (p := pipelinePart) (F := fun _ => True) hm fun _ _ hw => hw).conseq
  . exact fun _ hw => ⟨hw, trivial⟩
  . exact fun _ _ hw => hw.1
  . exact fun _ _ hw => hw.1
  . exact fun _ hw => hw.1

theorem keeps_publishStatus (hI : Stable I) {reason : StreamEndReason}
    : Program.Keeps (fun w => I w.env) (publishStatus v reason) := by
  have hnumber := keeps_onPipeline_stable (Pipeline.keeps_queueNumber hI)
  apply Program.keeps_bind Program.keeps_inspect
  intro started
  apply Program.keeps_ite Program.keeps_pure
  apply Program.keeps_bind (keeps_onEnv_stable (keeps_isCancelled hI))
  intro cancelled
  apply Program.keeps_bind hnumber
  intro current
  apply Program.keeps_bind hnumber
  intro peak
  apply Program.keeps_bind hnumber
  intro backpressure
  apply Program.keeps_bind (keeps_onEnv_stable (keeps_observe hI))
  intro call
  apply Program.keeps_ite Program.keeps_raise
  apply Program.keeps_bind
  . apply Program.keeps_update
    exact fun _ hw => hw
  . intro _
    apply Program.keeps_update
    exact fun _ hw => hw

-- What holds while `publish_status` collects what it will publish.
def Collecting (H : Heap → Prop) (F : World → Prop) (w : World) : Prop :=
  H w.heap ∧ Unpublished w ∧ w.lease = .held ∧ F w

theorem triple_publishStatus (hH : HasSession H) (hF : Apart F) {reason : StreamEndReason}
    : Program.Triple (Collecting H F) (publishStatus v reason)
        (fun _ w => H w.heap ∧ Published v.request.sid reason w ∧ w.lease = .held ∧ F w)
        (fun _ w => v.setEndedThrows = true ∧ Collecting H F w) (Collecting H F) := by
  have henv : ∀ env w, Collecting H F w → Collecting H F { w with env } :=
    fun _ w hw => ⟨hw.1, hw.2.1, hw.2.2.1, hF w _ rfl rfl rfl rfl hw.2.2.2⟩
  have hnumber : ∀ {E : Exn → World → Prop},
      Program.Triple (Collecting H F) (onPipeline queueNumber) (fun _ => Collecting H F) E
        (Collecting H F) := by
    intro E
    have h := triple_onPipeline (F := fun w => Unpublished w ∧ w.lease = .held ∧ F w)
      (does_queueNumber (D := fun _ _ => False) hH)
      fun _ w hw => ⟨hw.1, hw.2.1, hF w _ rfl rfl rfl rfl hw.2.2⟩
    exact h.conseq (fun _ hw => hw) (fun _ _ hw => hw) (fun _ _ hw => hw.1.elim) fun _ hw => hw
  apply Program.triple_bind (R := fun started w => w = started ∧ Collecting H F w)
  . exact Program.triple_inspect fun _ hw => ⟨rfl, hw⟩
  . intro started
    apply Program.triple_ite
    . intro hpublished w _ hw
      rw [← hw.1, hw.2.2.1.1] at hpublished
      contradiction
    . intro _
      apply Program.triple_bind (R := fun cancelled w =>
        (started.env.cancelled = true → cancelled = true) ∧
          (cancelled = true → w.env.cancelled = true) ∧ Collecting H F w)
      . apply (Program.triple_zoom (p := envPart) (F := Collecting H F)
          (triple_isCancelled (b := started.env.cancelled)) henv).conseq
        . intro w hw
          rw [← hw.1]
          exact ⟨rfl, hw.2⟩
        . exact fun _ _ hw => ⟨hw.1.1, hw.1.2, hw.2⟩
        . exact fun _ _ hw => hw.1.elim
        . exact fun _ hw => hw.2
      . intro cancelled
        apply Program.Triple.given
        intro hcancelled
        have hstable : Stable fun env => cancelled = true → env.cancelled = true :=
          fun env tick henv hc => stable_cancelled env tick (henv hc)
        have hstep : Program.Triple
            (fun w => (cancelled = true → w.env.cancelled = true) ∧ Collecting H F w)
            (onPipeline queueNumber)
            (fun _ w => (cancelled = true → w.env.cancelled = true) ∧ Collecting H F w)
            (fun _ w => v.setEndedThrows = true ∧ Collecting H F w) (Collecting H F) := by
          apply ((keeps_onPipeline_stable (keeps_queueNumber hstable)).and
            (hnumber (E := fun _ _ => False))).conseq
          . exact fun _ hw => hw
          . exact fun _ _ hw => hw
          . exact fun _ _ hw => hw.2.elim
          . exact fun _ hw => hw.2
        apply Program.triple_bind hstep
        intro current
        apply Program.triple_bind hstep
        intro peak
        apply Program.triple_bind hstep
        intro backpressure
        apply Program.triple_bind
          (R := fun _ w => (cancelled = true → w.env.cancelled = true) ∧ Collecting H F w)
        . apply ((keeps_onEnv_stable (keeps_observe hstable)).and
            (triple_onEnv_noexcept (E := fun _ _ => False) neverRaises_observe henv)).conseq
          . exact fun _ hw => hw
          . exact fun _ _ hw => hw
          . exact fun _ _ hw => hw.2.elim
          . exact fun _ hw => hw.2
        intro call
        apply Program.triple_ite
        . intro hthrows
          exact Program.triple_raise fun _ hw => ⟨hthrows.1, hw.2⟩
        . intro _
          apply Program.triple_bind (R := fun _ w => H w.heap ∧
            (∃ r, w.ends = [r] ∧ r.Says v.request.sid reason) ∧ w.lease = .held ∧ F w)
          . apply Program.triple_update
            intro w ⟨hnow, hheap, hunpublished, hlease, hframe⟩
            refine ⟨hheap, ?_, hlease, hF w _ rfl rfl rfl rfl hframe⟩
            refine ⟨_, by simp [hunpublished.2]; rfl, rfl, rfl, hlease, ?_, ?_⟩
            . intro hstarted
              rw [if_pos (hcancelled hstarted)]
            . cases cancelled with
              | true => exact .inl ⟨rfl, hnow rfl⟩
              | false => exact .inr rfl
          . intro _
            apply Program.triple_update
            intro w ⟨hheap, hends, hlease, hframe⟩
            exact ⟨hheap, ⟨rfl, hends⟩, hlease, hF w _ rfl rfl rfl rfl hframe⟩

theorem triple_publishStatus_published {reason : StreamEndReason} {E : Exn → World → Prop}
    {C : World → Prop}
    : Program.Triple (fun w => w.statusPublished = true ∧ P w) (publishStatus v reason) (fun _ => P) E
        C := by
  apply Program.triple_bind (R := fun started w => started.statusPublished = true ∧ P w)
  . exact Program.triple_inspect fun _ hw => hw
  . intro started
    apply Program.Triple.given
    intro hpublished
    rw [if_pos hpublished]
    exact Program.triple_pure fun _ hw => hw

end World
end HikBridge
