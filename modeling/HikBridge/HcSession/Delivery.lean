import HikBridge.HcSession.Basic

/-!
This module shows that the stream that reaches FFmpeg has no gaps, if the SDK makes its callbacks one
at a time: the packets that the pumps pop are a prefix of those that the SDK delivered, and the first
one that is dropped ends the stream.
-/

namespace HikBridge

-- The packet of a call of `accept_data` that is neither queued nor dropped yet.
def CallbackPc.inFlight (pc : CallbackPc) : Option Bytes :=
  match pc with
  | .idle | .queued _ => none
  | .entered _ packet | .pushing _ packet | .waiting _ packet => some packet
  | .refused packet _ | .overflowed packet _ | .stored packet => some packet

-- The call may still queue its packet when the end reason is `reason`.
def CallbackPc.MayQueue (pc : CallbackPc) (reason : StreamEndReason) : Prop :=
  match pc with
  | .entered _ _ => reason = .Active
  | .pushing _ _ | .waiting _ _ => True
  | _ => False

def Pump.Ok (pump : Pump) : Prop :=
  match pump.pc with
  | .writing rest => pump.written ++ rest = pump.popped.flatten
  | .leaving | .leavingClosed | .closing | .done => pump.written <+: pump.popped.flatten
  | _ => pump.written = pump.popped.flatten

theorem Pump.Ok.written_prefix {pump : Pump} (h : pump.Ok) : pump.written <+: pump.popped.flatten := by
  unfold Pump.Ok at h
  split at h
  . next rest _ => exact ⟨rest, h⟩
  . exact h
  . exact h
  . exact h
  . exact h
  . exact h ▸ List.prefix_refl _

theorem CallbackPc.MayQueue.mono {pc : CallbackPc} {reason reason' : StreamEndReason}
    (h : pc.MayQueue reason') (hreason : reason ≠ .Active → reason' ≠ .Active)
    : pc.MayQueue reason := by
  cases pc with
  | entered type packet =>
    by_contra hended
    exact hreason hended h
  | pushing type packet => trivial
  | waiting type packet => trivial
  | idle | queued | refused | overflowed | stored => exact h

namespace SessionRun

variable {limit : Nat} {windows : Bool} {w w' : SessionRun} {events : List SessionEvent}

/--
The SDK delivers a packet only after its previous callback has returned.
-/
def OneAtATime (w : SessionRun) (event : SessionEvent) : Prop :=
  match event with
  | .deliver _ _ _ => ∀ callback, w.callbacks callback = .idle
  | _ => True

structure Delivered (w : SessionRun) : Prop where
  order : ∃ callback, (∀ c, c ≠ callback → w.callbacks c = .idle)
    ∧ w.accepted ++ w.dropped ++ (w.callbacks callback).inFlight.toList = w.delivered
  stored_ended : ∀ callback packet, w.callbacks callback = .stored packet → w.endReason ≠ .Active
  dropped_ended : w.dropped ≠ [] → w.endReason ≠ .Active ∨ w.stopped = true
  dropped_final : w.dropped ≠ [] → ∀ callback, ¬ (w.callbacks callback).MayQueue w.endReason

structure MonitorInv (w : SessionRun) : Prop where
  completing : ∀ reason resume, w.monitor = .completing reason resume → reason ≠ .Active
  storing : ∀ reason resume, w.monitor = .storing reason resume → reason ≠ .Active

-- The queue is a FIFO queue of the packets that were accepted and not popped yet.
def Queued (limit : Nat) (w : SessionRun) : Prop :=
  ∃ q, ByteQueue.Represents limit w.queue q ∧ q.accepted = w.accepted ∧ q.taken = w.popped

structure Pumped (w : SessionRun) : Prop where
  popped_eq : w.popped = w.finished.flatMap Pump.popped ++ w.pump.elim [] Pump.popped
  finished_ok : ∀ pump ∈ w.finished, pump.Ok
  pump_ok : ∀ pump, w.pump = some pump → pump.Ok

structure SameDelivery (w w' : SessionRun) : Prop where
  callbacks : w'.callbacks = w.callbacks
  delivered : w'.delivered = w.delivered
  accepted : w'.accepted = w.accepted
  dropped : w'.dropped = w.dropped
  ended : w.endReason ≠ .Active → w'.endReason ≠ .Active
  stopped : w.stopped = true → w'.stopped = true

theorem Delivered.frame (h : Delivered w) (hsame : SameDelivery w w') : Delivered w' where
  order := by
    rw [hsame.callbacks, hsame.delivered, hsame.accepted, hsame.dropped]
    exact h.order
  stored_ended := by
    intro callback packet hpc
    rw [hsame.callbacks] at hpc
    exact hsame.ended (h.stored_ended callback packet hpc)
  dropped_ended := by
    intro hdropped
    rw [hsame.dropped] at hdropped
    rcases h.dropped_ended hdropped with hended | hstopped
    . exact .inl (hsame.ended hended)
    . exact .inr (hsame.stopped hstopped)
  dropped_final := by
    intro hdropped callback hmay
    rw [hsame.dropped] at hdropped
    rw [hsame.callbacks] at hmay
    exact h.dropped_final hdropped callback (hmay.mono hsame.ended)

theorem sameDelivery_afterPop {pump : Pump} (result : BoundedFifo.Pop Bytes × ByteQueue)
    : SameDelivery w (w.afterPop pump result) := by
  rcases result with ⟨outcome, queue⟩
  cases outcome
  all_goals exact ⟨rfl, rfl, rfl, rfl, id, id⟩

theorem sameDelivery_pumpStep {pump : Pump} {late : Bool} (hstep : w.pumpStep pump late = some w')
    : SameDelivery w w' := by
  rcases pumpStep_cases hstep with ⟨timedOut, rfl⟩ | ⟨pump', rfl⟩
  . exact sameDelivery_afterPop _
  . exact ⟨rfl, rfl, rfl, rfl, id, id⟩

theorem sameDelivery_writeInput {pump : Pump} {count : Int} {interrupted : Bool}
    (hstep : w.writeInput pump count interrupted = some w') : SameDelivery w w' := by
  rcases writeInput_cases hstep with rfl | ⟨pump', rfl⟩
  . exact ⟨rfl, rfl, rfl, rfl, id, id⟩
  . exact ⟨rfl, rfl, rfl, rfl, id, id⟩

theorem sameDelivery_monitorStep {input : MonitorInput} (hinv : MonitorInv w)
    (hstep : w.monitorStep input = some w') : SameDelivery w w' := by
  cases monitorMoves_of_step hstep with
  | waits keepAliveFailures monitor => exact ⟨rfl, rfl, rfl, rfl, id, id⟩
  | stores hpc => exact ⟨rfl, rfl, rfl, rfl, fun _ => hinv.storing _ _ hpc, id⟩
  | closes hpc => exact ⟨rfl, rfl, rfl, rfl, id, id⟩

theorem sameDelivery_stop (hstep : w.stop = some w') : SameDelivery w w' := by
  unfold stop at hstep
  split at hstep
  . cases hstep
    exact ⟨rfl, rfl, rfl, rfl, id, fun _ => rfl⟩
  . cases hstep
    exact ⟨rfl, rfl, rfl, rfl, id, id⟩
  . split at hstep
    . cases hstep
      exact ⟨rfl, rfl, rfl, rfl, id, id⟩
    . contradiction
  . contradiction

section Callbacks

theorem Delivered.setCallback {callback : Nat} {pc : CallbackPc}
    (halone : ∀ c, c ≠ callback → w.callbacks c = .idle)
    (hcallbacks : w'.callbacks = Function.update w.callbacks callback pc)
    (horder : w'.accepted ++ w'.dropped ++ pc.inFlight.toList = w'.delivered)
    (hstored : ∀ packet, pc = .stored packet → w'.endReason ≠ .Active)
    (hended : w'.dropped ≠ [] → w'.endReason ≠ .Active ∨ w'.stopped = true)
    (hfinal : w'.dropped ≠ [] → ¬ pc.MayQueue w'.endReason) : Delivered w' where
  order := by
    refine ⟨callback, ?_, ?_⟩
    . intro c hc
      rw [hcallbacks, Function.update_of_ne hc]
      exact halone c hc
    . rw [hcallbacks, Function.update_self]
      exact horder
  stored_ended := by
    intro c packet hc
    rw [hcallbacks] at hc
    by_cases heq : c = callback
    . subst heq
      rw [Function.update_self] at hc
      exact hstored packet hc
    . rw [Function.update_of_ne heq, halone c heq] at hc
      contradiction
  dropped_ended := hended
  dropped_final := by
    intro hdropped c
    rw [hcallbacks]
    by_cases heq : c = callback
    . subst heq
      rw [Function.update_self]
      exact hfinal hdropped
    . rw [Function.update_of_ne heq, halone c heq]
      exact id

theorem Delivered.deliver {callback : Nat} {type : UInt32} {data : Option Bytes} (h : Delivered w)
    (hidle : ∀ c, w.callbacks c = .idle) (hstep : w.deliver callback type data = some w')
    : Delivered w' := by
  obtain ⟨c, -, horder⟩ := h.order
  rw [hidle c] at horder
  have hdelivered : w.accepted ++ w.dropped = w.delivered := by simpa [CallbackPc.inFlight] using horder
  unfold SessionRun.deliver at hstep
  split at hstep
  . cases hstep
    exact h
  . next packet _ =>
    split at hstep
    . cases hstep
      exact h
    . split at hstep
      . next hstopped =>
        cases hstep
        refine ⟨⟨callback, fun c _ => hidle c, ?_⟩, h.stored_ended, fun _ => .inr hstopped, ?_⟩
        . simp [hidle callback, CallbackPc.inFlight, ← hdelivered]
        . intro _ c
          dsimp only
          rw [hidle c]
          exact id
      . next hrunning =>
        cases hstep
        apply Delivered.setCallback (fun c _ => hidle c) rfl
        . simp [SessionRun.setCallback, CallbackPc.inFlight, ← hdelivered]
        . intro _ hpc
          contradiction
        . exact h.dropped_ended
        . intro hdropped
          rcases h.dropped_ended hdropped with hended | hstopped
          . exact hended
          . exact absurd hstopped hrunning
  . contradiction

theorem Delivered.afterPush {callback : Nat} {type : UInt32} {packet : Bytes}
    {result : BoundedFifo.Push Bytes × ByteQueue} (h : Delivered w)
    (halone : ∀ c, c ≠ callback → w.callbacks c = .idle)
    (horder : w.accepted ++ w.dropped ++ [packet] = w.delivered)
    (hmay : (w.callbacks callback).MayQueue w.endReason)
    (hitem : ∀ item queue, result = (.accepted item, queue) → item = packet)
    : Delivered (w.afterPush callback type packet result) := by
  have hnone : w.dropped = [] := by
    by_contra hdropped
    exact h.dropped_final hdropped callback hmay
  rcases result with ⟨outcome, queue⟩
  cases outcome with
  | accepted item =>
    rw [hitem item queue rfl]
    apply Delivered.setCallback halone rfl
    . simp [SessionRun.afterPush, SessionRun.setCallback, CallbackPc.inFlight, ← horder, hnone]
    . intro _ hpc
      contradiction
    . intro hdropped
      exact absurd hnone hdropped
    . intro hdropped
      exact absurd hnone hdropped
  | refused =>
    apply Delivered.setCallback halone rfl
    . simp [SessionRun.afterPush, SessionRun.setCallback, CallbackPc.inFlight, ← horder]
    . intro _ hpc
      contradiction
    . intro hdropped
      exact absurd hnone hdropped
    . intro hdropped
      exact absurd hnone hdropped
  | waiting =>
    apply Delivered.setCallback halone rfl
    . simp [SessionRun.afterPush, SessionRun.setCallback, CallbackPc.inFlight, ← horder]
    . intro _ hpc
      contradiction
    . intro hdropped
      exact absurd hnone hdropped
    . intro hdropped
      exact absurd hnone hdropped

theorem Delivered.acceptData {callback : Nat} {late : Bool} (h : Delivered w)
    (hstep : w.acceptData callback late = some w') : Delivered w' := by
  obtain ⟨c, halone, horder⟩ := h.order
  have hc : callback = c := by
    by_contra hne
    simp [SessionRun.acceptData, halone callback hne] at hstep
  subst hc
  unfold SessionRun.acceptData at hstep
  cases hpc : w.callbacks callback with
  | idle => simp [hpc] at hstep
  | entered type packet =>
    simp only [hpc] at hstep horder
    split at hstep
    . next hended =>
      cases hstep
      apply Delivered.setCallback halone rfl
      . simpa [SessionRun.setCallback, CallbackPc.inFlight] using horder
      . intro _ hpc'
        contradiction
      . intro _
        exact .inl hended
      . intro _
        exact id
    . next hactive =>
      cases hstep
      apply Delivered.setCallback halone rfl
      . exact horder
      . intro _ hpc'
        contradiction
      . exact h.dropped_ended
      . intro hdropped _
        apply h.dropped_final hdropped callback
        rw [hpc]
        exact not_not.mp hactive
  | pushing type packet =>
    simp only [hpc] at hstep horder
    cases hstep
    apply h.afterPush halone horder
    . rw [hpc]
      trivial
    . intro item queue hresult
      exact w.queue.eq_of_push_accepted packet hresult
  | waiting type packet =>
    simp only [hpc] at hstep horder
    cases hstep
    apply h.afterPush halone horder
    . rw [hpc]
      trivial
    . intro item queue hresult
      exact w.queue.eq_of_pushWake_accepted packet hresult
  | queued type =>
    simp only [hpc] at hstep horder
    cases hstep
    apply Delivered.setCallback halone rfl
    . exact horder
    . intro _ hpc'
      contradiction
    . exact h.dropped_ended
    . intro _
      exact id
  | refused packet wasOpen =>
    simp only [hpc] at hstep horder
    cases hstep
    apply Delivered.setCallback halone rfl
    . exact horder
    . intro _ hpc'
      contradiction
    . exact h.dropped_ended
    . intro _
      exact id
  | overflowed packet wasOpen =>
    simp only [hpc] at hstep horder
    cases hstep
    apply Delivered.setCallback halone rfl
    . exact horder
    . intro _ _ hended
      contradiction
    . intro _
      exact .inl (by simp)
    . intro _
      exact id
  | stored packet =>
    simp only [hpc] at hstep horder
    cases hstep
    apply Delivered.setCallback halone rfl
    . simpa [SessionRun.setCallback, CallbackPc.inFlight] using horder
    . intro _ hpc'
      contradiction
    . intro _
      exact .inl (h.stored_ended callback packet hpc)
    . intro _
      exact id

end Callbacks

theorem MonitorInv.monitorStep {input : MonitorInput} (h : MonitorInv w)
    (hstep : w.monitorStep input = some w') : MonitorInv w' := by
  unfold SessionRun.monitorStep at hstep
  cases hpc : w.monitor with
  | notStarted | exited => simp [hpc] at hstep
  | loop | sleeping | keptAlive =>
    simp only [hpc] at hstep
    cases hstep
    constructor
    all_goals
      intro _ _ hmonitor
      dsimp only at hmonitor
      grind
  | position =>
    simp only [hpc] at hstep
    cases hstep
    constructor
    all_goals
      intro _ _ hmonitor
      dsimp only at hmonitor
      grind
  | keepAlive positionDue =>
    simp only [hpc] at hstep
    split at hstep
    all_goals
      cases hstep
      constructor
      all_goals
        intro _ _ hmonitor
        dsimp only at hmonitor
        grind
  | completing reason resume =>
    have hreason := h.completing reason resume hpc
    simp only [hpc] at hstep
    cases hstep
    constructor
    all_goals
      intro _ _ hmonitor
      dsimp only at hmonitor
      cases resume <;> grind [MonitorPc.resumed]
  | storing reason resume =>
    simp only [hpc] at hstep
    cases hstep
    exact ⟨fun _ _ hmonitor => (nomatch hmonitor), fun _ _ hmonitor => (nomatch hmonitor)⟩
  | closing resume =>
    simp only [hpc] at hstep
    cases hstep
    cases resume
    all_goals
      exact ⟨fun _ _ hmonitor => (nomatch hmonitor), fun _ _ hmonitor => (nomatch hmonitor)⟩

theorem MonitorInv.frame (h : MonitorInv w) (hmonitor : w'.monitor = w.monitor) : MonitorInv w' where
  completing := by
    rw [hmonitor]
    exact h.completing
  storing := by
    rw [hmonitor]
    exact h.storing

theorem Queued.frame (h : Queued limit w) (hqueue : w'.queue = w.queue)
    (haccepted : w'.accepted = w.accepted) (hpopped : w'.popped = w.popped) : Queued limit w' := by
  obtain ⟨q, hq, hq_accepted, hq_taken⟩ := h
  refine ⟨q, ?_, ?_, ?_⟩
  . rw [hqueue]
    exact hq
  . rw [haccepted]
    exact hq_accepted
  . rw [hpopped]
    exact hq_taken

theorem Queued.close (h : Queued limit w) (hqueue : w'.queue = w.queue.close)
    (haccepted : w'.accepted = w.accepted) (hpopped : w'.popped = w.popped) : Queued limit w' := by
  obtain ⟨q, hq, hq_accepted, hq_taken⟩ := h
  refine ⟨q.close, ?_, ?_, ?_⟩
  . rw [hqueue]
    exact (ByteQueue.refines limit).close _ _ hq
  . rw [haccepted]
    exact hq_accepted
  . rw [hpopped]
    exact hq_taken

theorem Queued.afterPush {callback : Nat} {type : UInt32} {packet : Bytes}
    {result : BoundedFifo.Push Bytes × ByteQueue} (h : Queued limit w)
    (hresult : ∀ q, ByteQueue.Represents limit w.queue q
      → BoundedFifo.Impl.PushMeets (ByteQueue.Represents limit) q result)
    : Queued limit (w.afterPush callback type packet result) := by
  obtain ⟨q, hq, hq_accepted, hq_taken⟩ := h
  have hmeets := hresult q hq
  rcases result with ⟨outcome, queue⟩
  cases outcome with
  | accepted item =>
    obtain ⟨-, hfit, hqueue⟩ := hmeets
    refine ⟨q.accept item hfit, hqueue, ?_, hq_taken⟩
    simp [BoundedFifo.accept, SessionRun.afterPush, hq_accepted]
  | refused => exact ⟨q, hmeets, hq_accepted, hq_taken⟩
  | waiting => exact ⟨q, hmeets, hq_accepted, hq_taken⟩

theorem Queued.afterPop {pump : Pump} {result : BoundedFifo.Pop Bytes × ByteQueue}
    (h : Queued limit w)
    (hresult : ∀ q, ByteQueue.Represents limit w.queue q
      → BoundedFifo.Impl.PopMeets (ByteQueue.Represents limit) q result)
    : Queued limit (w.afterPop pump result) := by
  obtain ⟨q, hq, hq_accepted, hq_taken⟩ := h
  have hmeets := hresult q hq
  rcases result with ⟨outcome, queue⟩
  cases outcome with
  | taken item =>
    obtain ⟨rest, hqueued, hqueue⟩ := hmeets
    refine ⟨q.take item rest hqueued, hqueue, hq_accepted, ?_⟩
    simp [BoundedFifo.take, SessionRun.afterPop, hq_taken]
  | nothing => exact ⟨q, hmeets, hq_accepted, hq_taken⟩
  | waiting => exact ⟨q, hmeets, hq_accepted, hq_taken⟩

theorem Queued.acceptData {callback : Nat} {late : Bool} (h : Queued limit w)
    (hstep : w.acceptData callback late = some w') : Queued limit w' := by
  unfold SessionRun.acceptData at hstep
  split at hstep
  . contradiction
  . split at hstep
    all_goals
      cases hstep
      exact h.frame rfl rfl rfl
  . cases hstep
    apply h.afterPush
    intro q hq
    exact hq.push _ _
  . cases hstep
    apply h.afterPush
    intro q hq
    exact hq.pushWake _ _
  . cases hstep
    exact h.frame rfl rfl rfl
  . cases hstep
    exact h.frame rfl rfl rfl
  . cases hstep
    exact h.frame rfl rfl rfl
  . cases hstep
    exact h.close rfl rfl rfl

theorem Queued.monitorStep {input : MonitorInput} (h : Queued limit w)
    (hstep : w.monitorStep input = some w') : Queued limit w' := by
  cases monitorMoves_of_step hstep with
  | waits keepAliveFailures monitor => exact h.frame rfl rfl rfl
  | stores hpc => exact h.frame rfl rfl rfl
  | closes hpc => exact h.close rfl rfl rfl

theorem Queued.pumpStep {pump : Pump} {late : Bool} (h : Queued limit w)
    (hstep : w.pumpStep pump late = some w') : Queued limit w' := by
  rcases pumpStep_cases hstep with ⟨timedOut, rfl⟩ | ⟨pump', rfl⟩
  . apply h.afterPop
    intro q hq
    exact hq.popWake timedOut
  . exact h.frame rfl rfl rfl

theorem Pumped.setPump {pump pump' : Pump} (h : Pumped w) (hpump : w.pump = some pump)
    (packets : List Bytes) (hpopped : w'.popped = w.popped ++ packets)
    (hfinished : w'.finished = w.finished) (hpump' : w'.pump = some pump')
    (hpackets : pump'.popped = pump.popped ++ packets) (hok : pump'.Ok) : Pumped w' where
  popped_eq := by
    rw [hpopped, hfinished, hpump', h.popped_eq, hpump]
    simp [hpackets]
  finished_ok := by
    rw [hfinished]
    exact h.finished_ok
  pump_ok := by
    intro p hp
    rw [hpump'] at hp
    cases hp
    exact hok

theorem Pumped.afterPop {pump : Pump} {result : BoundedFifo.Pop Bytes × ByteQueue} (h : Pumped w)
    (hpump : w.pump = some pump) (hwritten : pump.written = pump.popped.flatten)
    : Pumped (w.afterPop pump result) := by
  rcases result with ⟨outcome, queue⟩
  cases outcome with
  | taken packet =>
    refine h.setPump hpump [packet] rfl rfl rfl rfl ?_
    simp [Pump.Ok, hwritten]
  | nothing => exact h.setPump hpump [] (by simp [SessionRun.afterPop]) rfl rfl (by simp) hwritten
  | waiting => exact h.setPump hpump [] (by simp [SessionRun.afterPop]) rfl rfl (by simp) hwritten

theorem Pumped.pumpStep {pump : Pump} {late : Bool} (h : Pumped w) (hpump : w.pump = some pump)
    (hstep : w.pumpStep pump late = some w') : Pumped w' := by
  have hok := h.pump_ok pump hpump
  unfold Pump.Ok at hok
  unfold SessionRun.pumpStep at hstep
  cases hpc : pump.pc with
  | loop | emptyStop | emptyClosed =>
    simp only [hpc] at hstep hok
    cases hstep
    have hprefix : pump.written <+: pump.popped.flatten := ⟨[], (List.append_nil _).trans hok⟩
    refine h.setPump hpump [] (by simp) rfl rfl (by simp) ?_
    unfold Pump.Ok
    dsimp only
    split
    . next hpc' => split at hpc' <;> contradiction
    all_goals
      first | exact hprefix | exact hok
  | popping =>
    simp only [hpc] at hstep hok
    cases hstep
    exact h.afterPop hpump hok
  | waiting =>
    simp only [hpc] at hstep hok
    cases hstep
    exact h.afterPop hpump hok
  | emptyClock =>
    simp only [hpc] at hstep hok
    split at hstep
    . cases hstep
      refine h.setPump hpump [] (by simp) rfl rfl (by simp) ?_
      simp [Pump.Ok, hok]
    . cases hstep
      exact h.setPump hpump [] (by simp) rfl rfl (by simp) hok
  | writing rest =>
    simp only [hpc] at hstep hok
    cases rest with
    | nil =>
      cases hstep
      refine h.setPump hpump [] (by simp) rfl rfl (by simp) ?_
      simpa [Pump.Ok] using hok
    | cons byte bytes => contradiction
  | leaving =>
    simp only [hpc] at hstep hok
    cases hstep
    refine h.setPump hpump [] (by simp) rfl rfl (by simp) ?_
    cases hstop : pump.stopRequested <;> simpa [Pump.Ok, hstop] using hok
  | leavingClosed | closing =>
    simp only [hpc] at hstep hok
    cases hstep
    exact h.setPump hpump [] (by simp) rfl rfl (by simp) hok
  | done => simp [hpc] at hstep

theorem Pumped.writeInput {pump : Pump} {count : Int} {interrupted : Bool} (h : Pumped w)
    (hpump : w.pump = some pump) (hstep : w.writeInput pump count interrupted = some w')
    : Pumped w' := by
  have hok := h.pump_ok pump hpump
  unfold Pump.Ok at hok
  unfold SessionRun.writeInput at hstep
  split at hstep
  . next byte bytes hpc =>
    simp only [hpc] at hok
    dsimp only at hstep
    split at hstep
    . cases hstep
      exact h
    . split at hstep
      . cases hstep
        exact h.setPump hpump [] (by simp) rfl rfl (by simp) ⟨_, hok⟩
      . split at hstep
        . contradiction
        . cases hstep
          refine h.setPump hpump [] (by simp) rfl rfl (by simp) ?_
          simpa [Pump.Ok] using hok
  . contradiction

structure SamePumps (w w' : SessionRun) : Prop where
  popped : w'.popped = w.popped
  pump : w'.pump = w.pump
  finished : w'.finished = w.finished

theorem Pumped.frame (h : Pumped w) (hsame : SamePumps w w') : Pumped w' where
  popped_eq := by
    rw [hsame.popped, hsame.pump, hsame.finished]
    exact h.popped_eq
  finished_ok := by
    rw [hsame.finished]
    exact h.finished_ok
  pump_ok := by
    rw [hsame.pump]
    exact h.pump_ok

theorem deliver_frame {callback : Nat} {type : UInt32} {data : Option Bytes}
    (hstep : w.deliver callback type data = some w')
    : SamePumps w w' ∧ w'.monitor = w.monitor ∧ w'.queue = w.queue ∧ w'.accepted = w.accepted := by
  unfold deliver at hstep
  split at hstep
  . cases hstep
    exact ⟨⟨rfl, rfl, rfl⟩, rfl, rfl, rfl⟩
  . split at hstep
    . cases hstep
      exact ⟨⟨rfl, rfl, rfl⟩, rfl, rfl, rfl⟩
    . split at hstep
      all_goals
        cases hstep
        exact ⟨⟨rfl, rfl, rfl⟩, rfl, rfl, rfl⟩
  . contradiction

theorem acceptData_frame {callback : Nat} {late : Bool}
    (hstep : w.acceptData callback late = some w')
    : SamePumps w w' ∧ w'.monitor = w.monitor := by
  unfold acceptData at hstep
  split at hstep
  . contradiction
  . split at hstep
    all_goals
      cases hstep
      exact ⟨⟨rfl, rfl, rfl⟩, rfl⟩
  . cases hstep
    unfold afterPush
    split <;> exact ⟨⟨rfl, rfl, rfl⟩, rfl⟩
  . cases hstep
    unfold afterPush
    split <;> exact ⟨⟨rfl, rfl, rfl⟩, rfl⟩
  . cases hstep
    exact ⟨⟨rfl, rfl, rfl⟩, rfl⟩
  . cases hstep
    exact ⟨⟨rfl, rfl, rfl⟩, rfl⟩
  . cases hstep
    exact ⟨⟨rfl, rfl, rfl⟩, rfl⟩
  . cases hstep
    exact ⟨⟨rfl, rfl, rfl⟩, rfl⟩

theorem monitorStep_frame {input : MonitorInput} (hstep : w.monitorStep input = some w')
    : SamePumps w w' := by
  cases monitorMoves_of_step hstep with
  | waits keepAliveFailures monitor => exact ⟨rfl, rfl, rfl⟩
  | stores hpc => exact ⟨rfl, rfl, rfl⟩
  | closes hpc => exact ⟨rfl, rfl, rfl⟩

theorem stop_frame (hstep : w.stop = some w')
    : SamePumps w w' ∧ w'.monitor = w.monitor ∧ w'.accepted = w.accepted
      ∧ (w'.queue = w.queue ∨ w'.queue = w.queue.close) := by
  unfold stop at hstep
  split at hstep
  . cases hstep
    exact ⟨⟨rfl, rfl, rfl⟩, rfl, rfl, .inl rfl⟩
  . cases hstep
    exact ⟨⟨rfl, rfl, rfl⟩, rfl, rfl, .inr rfl⟩
  . split at hstep
    . cases hstep
      exact ⟨⟨rfl, rfl, rfl⟩, rfl, rfl, .inl rfl⟩
    . contradiction
  . contradiction

theorem pumpStep_monitor {pump : Pump} {late : Bool} (hstep : w.pumpStep pump late = some w')
    : w'.monitor = w.monitor := by
  rcases pumpStep_cases hstep with ⟨timedOut, rfl⟩ | ⟨pump', rfl⟩
  . unfold afterPop
    split <;> rfl
  . rfl

theorem writeInput_frame {pump : Pump} {count : Int} {interrupted : Bool}
    (hstep : w.writeInput pump count interrupted = some w')
    : w'.monitor = w.monitor ∧ w'.queue = w.queue ∧ w'.accepted = w.accepted
      ∧ w'.popped = w.popped := by
  rcases writeInput_cases hstep with rfl | ⟨pump', rfl⟩
  . exact ⟨rfl, rfl, rfl, rfl⟩
  . exact ⟨rfl, rfl, rfl, rfl⟩

structure Inv (limit : Nat) (w : SessionRun) : Prop where
  delivered : Delivered w
  monitor : MonitorInv w
  queued : Queued limit w
  pumped : Pumped w

theorem inv_start (limit : Nat) (windows : Bool) : Inv limit (start limit windows) where
  delivered := by
    refine ⟨⟨0, fun _ _ => rfl, rfl⟩, ?_, ?_, ?_⟩
    . intro _ _ hpc
      contradiction
    . intro hdropped
      contradiction
    . intro hdropped
      contradiction
  monitor := ⟨fun _ _ h => (nomatch h), fun _ _ h => (nomatch h)⟩
  queued := ⟨.empty, ByteQueue.represents_empty limit, rfl, rfl⟩
  pumped := by
    refine ⟨rfl, ?_, ?_⟩
    . intro pump hpump
      contradiction
    . intro pump hpump
      contradiction

theorem step_delivery {event : SessionEvent} (h : MonitorInv w) (hstep : w.step event = some w')
    : (∃ callback type data, event = .deliver callback type data
        ∧ w.deliver callback type data = some w')
      ∨ (∃ callback late, event = .callback callback late ∧ w.acceptData callback late = some w')
      ∨ SameDelivery w w' := by
  unfold step at hstep
  split at hstep
  . exact .inl ⟨_, _, _, rfl, hstep⟩
  . exact .inr (.inl ⟨_, _, rfl, hstep⟩)
  . split at hstep
    . cases hstep
      exact .inr (.inr ⟨rfl, rfl, rfl, rfl, id, id⟩)
    . contradiction
  . exact .inr (.inr (sameDelivery_monitorStep h hstep))
  . exact .inr (.inr (sameDelivery_stop hstep))
  . cases hstep
    exact .inr (.inr ⟨rfl, rfl, rfl, rfl, id, id⟩)
  . exact .inr (.inr (sameDelivery_pumpStep hstep))
  . exact .inr (.inr (sameDelivery_writeInput hstep))
  . cases hstep
    exact .inr (.inr ⟨rfl, rfl, rfl, rfl, id, id⟩)
  . split at hstep
    . cases hstep
      exact .inr (.inr ⟨rfl, rfl, rfl, rfl, id, id⟩)
    . contradiction
  . contradiction

theorem Inv.delivered_step {event : SessionEvent} (h : Inv limit w) (hone : w.OneAtATime event)
    (hstep : w.step event = some w') : Delivered w' := by
  rcases step_delivery h.monitor hstep with ⟨_, _, _, rfl, hdeliver⟩ | ⟨_, _, rfl, haccept⟩ | hsame
  . exact h.delivered.deliver hone hdeliver
  . exact h.delivered.acceptData haccept
  . exact h.delivered.frame hsame

theorem inv_step {event : SessionEvent} (h : Inv limit w) (hone : w.OneAtATime event)
    (hstep : w.step event = some w') : Inv limit w' := by
  have hdelivered := h.delivered_step hone hstep
  unfold step at hstep
  split at hstep
  . obtain ⟨hpumps, hmonitor, hqueue, haccepted⟩ := deliver_frame hstep
    exact ⟨hdelivered, h.monitor.frame hmonitor,
      h.queued.frame hqueue haccepted hpumps.popped, h.pumped.frame hpumps⟩
  . obtain ⟨hpumps, hmonitor⟩ := acceptData_frame hstep
    exact ⟨hdelivered, h.monitor.frame hmonitor, h.queued.acceptData hstep, h.pumped.frame hpumps⟩
  . split at hstep
    . cases hstep
      exact ⟨hdelivered, ⟨fun _ _ hpc => (nomatch hpc), fun _ _ hpc => (nomatch hpc)⟩,
        h.queued.frame rfl rfl rfl, h.pumped.frame ⟨rfl, rfl, rfl⟩⟩
    . contradiction
  . exact ⟨hdelivered, h.monitor.monitorStep hstep, h.queued.monitorStep hstep,
      h.pumped.frame (monitorStep_frame hstep)⟩
  . obtain ⟨hpumps, hmonitor, haccepted, hqueue | hclose⟩ := stop_frame hstep
    . exact ⟨hdelivered, h.monitor.frame hmonitor,
        h.queued.frame hqueue haccepted hpumps.popped, h.pumped.frame hpumps⟩
    . exact ⟨hdelivered, h.monitor.frame hmonitor,
        h.queued.close hclose haccepted hpumps.popped, h.pumped.frame hpumps⟩
  . next hpump =>
    cases hstep
    refine ⟨hdelivered, h.monitor.frame rfl, h.queued.frame rfl rfl rfl,
      ⟨?_, h.pumped.finished_ok, ?_⟩⟩
    . simpa [hpump] using h.pumped.popped_eq
    . intro pump hnew
      cases hnew
      rfl
  . next pump hpump =>
    exact ⟨hdelivered, h.monitor.frame (pumpStep_monitor hstep), h.queued.pumpStep hstep,
      h.pumped.pumpStep hpump hstep⟩
  . next pump hpump =>
    obtain ⟨hmonitor, hqueue, haccepted, hpopped⟩ := writeInput_frame hstep
    exact ⟨hdelivered, h.monitor.frame hmonitor, h.queued.frame hqueue haccepted hpopped,
      h.pumped.writeInput hpump hstep⟩
  . next pump hpump =>
    cases hstep
    exact ⟨hdelivered, h.monitor.frame rfl, h.queued.frame rfl rfl rfl,
      h.pumped.setPump hpump [] (by simp) rfl rfl (by simp) (h.pumped.pump_ok pump hpump)⟩
  . next pump hpump =>
    split at hstep
    . cases hstep
      refine ⟨hdelivered, h.monitor.frame rfl, h.queued.frame rfl rfl rfl, ⟨?_, ?_, ?_⟩⟩
      . simpa [hpump] using h.pumped.popped_eq
      . intro p hp
        rcases List.mem_append.mp hp with hold | hnew
        . exact h.pumped.finished_ok p hold
        . rw [List.mem_singleton.mp hnew]
          exact h.pumped.pump_ok pump hpump
      . intro _ hnone
        contradiction
    . contradiction
  . contradiction

structure Ended (v w : SessionRun) : Prop where
  dropped : w.dropped ≠ []
  accepted : w.accepted = v.accepted
  ended : v.endReason ≠ .Active → w.endReason ≠ .Active

theorem acceptData_accepted {callback : Nat} {late : Bool} (h : Delivered w)
    (hdropped : w.dropped ≠ []) (hstep : w.acceptData callback late = some w')
    : Ended w w' := by
  have hfinal := h.dropped_final hdropped callback
  unfold acceptData at hstep
  cases hpc : w.callbacks callback with
  | idle => simp [hpc] at hstep
  | entered type packet =>
    simp only [hpc] at hstep
    split at hstep
    . cases hstep
      exact ⟨by simp, rfl, id⟩
    . cases hstep
      exact ⟨hdropped, rfl, id⟩
  | pushing type packet =>
    rw [hpc] at hfinal
    exact absurd trivial hfinal
  | waiting type packet =>
    rw [hpc] at hfinal
    exact absurd trivial hfinal
  | queued type =>
    simp only [hpc] at hstep
    cases hstep
    exact ⟨hdropped, rfl, id⟩
  | refused packet wasOpen =>
    simp only [hpc] at hstep
    cases hstep
    exact ⟨hdropped, rfl, id⟩
  | overflowed packet wasOpen =>
    simp only [hpc] at hstep
    cases hstep
    exact ⟨hdropped, rfl, fun _ hended => by contradiction⟩
  | stored packet =>
    simp only [hpc] at hstep
    cases hstep
    exact ⟨by simp, rfl, id⟩

theorem deliver_accepted {callback : Nat} {type : UInt32} {data : Option Bytes}
    (hdropped : w.dropped ≠ []) (hstep : w.deliver callback type data = some w') : Ended w w' := by
  unfold deliver at hstep
  split at hstep
  . cases hstep
    exact ⟨hdropped, rfl, id⟩
  . split at hstep
    . cases hstep
      exact ⟨hdropped, rfl, id⟩
    . split at hstep
      . cases hstep
        exact ⟨by simp, rfl, id⟩
      . cases hstep
        exact ⟨hdropped, rfl, id⟩
  . contradiction

theorem Inv.ended_step {event : SessionEvent} {v : SessionRun} (h : Inv limit w)
    (hended : Ended v w) (hstep : w.step event = some w') : Ended v w' := by
  have hnext : Ended w w' := by
    rcases step_delivery h.monitor hstep with ⟨_, _, _, rfl, hdeliver⟩ | ⟨_, _, rfl, haccept⟩ | hsame
    . exact deliver_accepted hended.dropped hdeliver
    . exact acceptData_accepted h.delivered hended.dropped haccept
    . exact ⟨by rw [hsame.dropped]; exact hended.dropped, hsame.accepted, hsame.ended⟩
  exact ⟨hnext.dropped, hnext.accepted.trans hended.accepted, fun hv => hnext.ended (hended.ended hv)⟩

theorem inv_run (hone : Machine.Meets step OneAtATime (start limit windows) events)
    (hrun : Machine.run step (start limit windows) events = some w) : Inv limit w :=
  Machine.run_invariant_of_meets (fun _ _ _ => inv_step) (inv_start limit windows) hone hrun

theorem ended_run {v : SessionRun} (h : Inv limit v) (hdropped : v.dropped ≠ [])
    (hone : Machine.Meets step OneAtATime v events) (hrun : Machine.run step v events = some w)
    : Ended v w := by
  have hboth : Inv limit w ∧ Ended v w := by
    apply Machine.run_invariant_of_meets (I := fun w => Inv limit w ∧ Ended v w) _ _ hone hrun
    . intro s e s' hs hone hstep
      exact ⟨inv_step hs.1 hone hstep, hs.1.ended_step hs.2 hstep⟩
    . exact ⟨h, hdropped, rfl, id⟩
  exact hboth.2

/--
What reaches FFmpeg has no gaps: the packets popped are a prefix of those delivered, after a packet
was dropped nothing is queued and the session has ended or was stopped, and what each pump writes is
a prefix of its own contiguous run of the popped packets.
-/
theorem gap_free (hone : Machine.Meets step OneAtATime (start limit windows) events)
    (hrun : Machine.run step (start limit windows) events = some w)
    : w.popped <+: w.delivered
      ∧ (∀ before after v, events = before ++ after
        → Machine.run step (start limit windows) before = some v → v.dropped ≠ []
        → w.accepted = v.accepted ∧ (v.stopped = false → w.endReason ≠ .Active))
      ∧ w.popped = w.finished.flatMap Pump.popped ++ w.pump.elim [] Pump.popped
      ∧ ∀ pump, pump ∈ w.finished ∨ w.pump = some pump
        → pump.written <+: pump.popped.flatten := by
  have hinv := inv_run hone hrun
  refine ⟨?_, ?_, hinv.pumped.popped_eq, ?_⟩
  . obtain ⟨q, -, haccepted, htaken⟩ := hinv.queued
    obtain ⟨_, -, horder⟩ := hinv.delivered.order
    have hpopped : w.popped <+: w.accepted := by
      rw [← haccepted, ← htaken, ← q.taken_append_queued]
      exact List.prefix_append _ _
    have hqueued : w.accepted <+: w.delivered := by
      rw [← horder, List.append_assoc]
      exact List.prefix_append _ _
    exact hpopped.trans hqueued
  . rintro before after v rfl hv hdropped
    obtain ⟨v', hv', hafter⟩ := Machine.run_append_eq_some.mp hrun
    rw [hv] at hv'
    cases hv'
    obtain ⟨hone_before, hone_after⟩ := Machine.meets_append hv hone
    have hinvv := inv_run hone_before hv
    have hended := ended_run hinvv hdropped hone_after hafter
    refine ⟨hended.accepted, fun hrunning => ?_⟩
    apply hended.ended
    rcases hinvv.delivered.dropped_ended hdropped with hreason | hstopped
    . exact hreason
    . rw [hrunning] at hstopped
      contradiction
  . intro pump hpump
    apply Pump.Ok.written_prefix
    rcases hpump with hfinished | hcurrent
    . exact hinv.pumped.finished_ok pump hfinished
    . exact hinv.pumped.pump_ok pump hcurrent

/--
A packet of two bytes of which the pump has written the first one.
-/
theorem gap_free_partial_write
    : ∃ w, Machine.run step (start 4 false)
          [.deliver 0 2 (some [7, 8]), .callback 0 false, .callback 0 false, .callback 0 false,
            .startPump, .pump false, .pump false, .write 1 false] = some w
        ∧ w.popped = [[7, 8]] ∧ w.popped <+: w.delivered
        ∧ ∀ pump, w.pump = some pump → pump.written <+: pump.popped.flatten := by
  refine ⟨_, rfl, rfl, ?_⟩
  have hone : Machine.Meets step OneAtATime (start 4 false)
      [.deliver 0 2 (some [7, 8]), .callback 0 false, .callback 0 false, .callback 0 false,
        .startPump, .pump false, .pump false, .write 1 false] :=
    ⟨fun _ => rfl, fun _ _ => ⟨trivial, fun _ _ => ⟨trivial, fun _ _ => ⟨trivial, fun _ _ =>
      ⟨trivial, fun _ _ => ⟨trivial, fun _ _ => ⟨trivial, fun _ _ => ⟨trivial, fun _ _ =>
        trivial⟩⟩⟩⟩⟩⟩⟩⟩
  have hmain := gap_free hone rfl
  exact ⟨hmain.1, fun pump hpump => hmain.2.2.2 pump (.inr hpump)⟩

end SessionRun
end HikBridge
