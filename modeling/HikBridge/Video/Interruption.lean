import HikBridge.Video.Copying
import HikBridge.Video.Schedule

/-!
This module contains how `handle_video` can fail with a part of its header block on the wire: only where
the socket takes a part of the block and then nothing until the timeout, or where it fails and the end
cannot be published either.
-/

namespace HikBridge

namespace Pipeline

variable {v : Setting} {α β : Type} {s : Slot} {id : Nat}

def Tidy (m : Program Pipeline Tick Exn α) : Prop :=
  ∀ I : Env → Prop, Stable I → Program.Triple (fun p => I p.env) m (fun _ p => I p.env) (fun _ _ => False)
    fun p => I p.env

theorem Tidy.keeps {m : Program Pipeline Tick Exn α} {I : Env → Prop} (hm : Tidy m) (hI : Stable I)
    : Program.Keeps (fun p : Pipeline => I p.env) m :=
  (hm I hI).conseq (fun _ => id) (fun _ _ => id) (fun _ _ => False.elim) fun _ => id

theorem Tidy.neverRaises {m : Program Pipeline Tick Exn α} (hm : Tidy m) : Program.NeverRaises m :=
  hm (fun _ => True) fun _ _ => id

theorem tidy_pure {value : α} : Tidy (pure value) := fun _ _ => Program.triple_pure fun _ => id

theorem tidy_bind {m : Program Pipeline Tick Exn β} {f : β → Program Pipeline Tick Exn α} (hm : Tidy m)
    (hf : ∀ b, Tidy (f b)) : Tidy (m >>= f) :=
  fun I hI => Program.triple_bind (hm I hI) fun b => hf b I hI

theorem tidy_ite {c : Prop} [Decidable c] {m n : Program Pipeline Tick Exn α} (hm : Tidy m) (hn : Tidy n)
    : Tidy (if c then m else n) :=
  fun I hI => Program.triple_ite (fun _ => hm I hI) fun _ => hn I hI

theorem tidy_updateHeap {f : Heap → Heap} : Tidy (updateHeap f) :=
  fun _ _ => Program.triple_update fun _ => id

theorem tidy_currentHeap : Tidy currentHeap := by
  intro I _
  apply Program.triple_bind (R := fun _ p => I p.env)
  . exact Program.triple_inspect fun _ => id
  . exact fun _ => Program.triple_pure fun _ => id

theorem tidy_undefinedBehavior : Tidy (undefinedBehavior : Program Pipeline Tick Exn α) :=
  tidy_bind tidy_updateHeap fun _ _ _ => Program.triple_terminate fun _ => id

theorem tidy_onEnv {m : Program Env Tick Exn α} (hnever : Program.NeverRaises m)
    (hm : ∀ I, Stable I → Program.Keeps I m) : Tidy (onEnv m) := by
  intro I hI
  apply (Program.triple_zoom (p := envPart) (F := fun _ => True) (hnever.and (hm I hI)) fun _ _ hp => hp).conseq
  . exact fun _ hp => ⟨⟨trivial, hp⟩, trivial⟩
  . exact fun _ _ hp => hp.1.2
  . exact fun _ _ hp => hp.1.1
  . exact fun _ hp => hp.1.2

theorem tidy_observe : Tidy (onEnv observe) :=
  tidy_onEnv neverRaises_observe fun _ hI => keeps_observe hI

theorem tidy_logLineNoexcept : Tidy (onEnv (logLineNoexcept v)) :=
  tidy_onEnv (neverRaises_logLineNoexcept v) fun _ hI =>
    Program.keeps_rescue (keeps_logLine hI v) fun _ => Program.keeps_terminate

theorem tidy_sessionAt : Tidy (sessionAt id) := by
  apply tidy_bind tidy_currentHeap
  intro h
  cases h.sessions.find? fun session => session.id = id with
  | some session => exact tidy_pure
  | none => exact tidy_undefinedBehavior

theorem tidy_processAt : Tidy (processAt id) := by
  apply tidy_bind tidy_currentHeap
  intro h
  cases h.processes.find? fun process => process.id = id with
  | some process => exact tidy_pure
  | none => exact tidy_undefinedBehavior

theorem tidy_queueNumber : Tidy World.queueNumber := by
  apply tidy_bind tidy_currentHeap
  intro h
  apply tidy_ite
  . apply tidy_bind
    . apply tidy_bind tidy_currentHeap
      intro h
      cases h.session with
      | some id => exact tidy_sessionAt
      | none => exact tidy_undefinedBehavior
    . exact fun _ => tidy_bind tidy_observe fun _ => tidy_pure
  . exact tidy_pure

theorem tidy_sdkCall {call : Tick → VideoSession → SdkCall} {keep : Tick → VideoSession → VideoSession}
    : Tidy (sdkCall id call keep) := by
  apply tidy_bind tidy_observe
  intro _
  apply tidy_bind tidy_sessionAt
  intro _
  apply tidy_bind tidy_updateHeap
  intro _
  apply tidy_bind tidy_updateHeap
  exact fun _ => tidy_pure

theorem tidy_destroySession : Tidy (destroySession v id) := by
  apply tidy_bind tidy_observe
  intro _
  apply tidy_bind tidy_sessionAt
  intro _
  apply tidy_bind
  . apply tidy_bind tidy_observe
    intro _
    exact tidy_bind tidy_updateHeap fun _ => tidy_updateHeap
  intro _
  apply tidy_bind (tidy_ite (tidy_bind tidy_sdkCall fun _ => tidy_pure) tidy_pure)
  intro _
  apply tidy_bind (tidy_ite (tidy_bind tidy_sdkCall fun _ => tidy_pure) tidy_pure)
  intro _
  apply tidy_bind tidy_logLineNoexcept
  exact fun _ => tidy_updateHeap

theorem tidy_resetSession : Tidy (resetSession v) := by
  apply tidy_bind tidy_currentHeap
  intro h
  cases h.session with
  | none => exact tidy_pure
  | some id => exact tidy_bind tidy_updateHeap fun _ => tidy_destroySession

theorem tidy_stopProcess : Tidy (stopProcess id) := by
  apply tidy_bind tidy_observe
  intro _
  apply tidy_bind tidy_processAt
  intro process
  apply tidy_ite tidy_pure
  iterate 3
    apply tidy_bind tidy_updateHeap
    intro _
    apply tidy_bind tidy_observe
    intro _
  exact tidy_pure

theorem tidy_resetProcess : Tidy (resetProcess s) := by
  apply tidy_bind tidy_currentHeap
  intro h
  cases h.slot s with
  | none => exact tidy_pure
  | some id =>
    apply tidy_bind tidy_updateHeap
    intro _
    apply tidy_bind tidy_stopProcess
    intro _
    exact tidy_bind tidy_observe fun _ => tidy_updateHeap

end Pipeline

namespace World

open Heap (Idle Delivers)

variable {v : Setting} {α : Type} {ts us : List Tick} {w w' : World} {exn : Exn}

def Guarded (w : World) : Prop := w.wire = [] ∨ w.responseStarted = true ∨ w.env.running = false

theorem keeps_guarded {m : Program World Tick Exn α}
    (hmute : ∀ {I : World → Prop}, Mute I → Program.Keeps I m)
    (hstopped : Program.Keeps (fun w : World => w.env.running = false) m) : Program.Keeps Guarded m := by
  have hwire : Mute fun w => w.wire = [] := fun _ _ hwire _ _ _ hw => hwire.trans hw
  have hstarted : Mute fun w => w.responseStarted = true := fun _ _ _ _ _ hstarted hw => hstarted.trans hw
  exact (hmute hwire).or ((hmute hstarted).or hstopped)

theorem keeps_guarded_onEnv {m : Program Env Tick Exn α}
    (hm : ∀ I, Stable I → Program.Keeps I m) : Program.Keeps Guarded (onEnv m) :=
  keeps_guarded (fun hI => keeps_env hI) (keeps_onEnv_stable (hm _ stable_stopped))

theorem keeps_guarded_publishException : Program.Keeps Guarded (publishException v exn) := by
  have hstatus : ∀ reason, Program.Keeps Guarded (publishStatus v reason) := fun _ =>
    keeps_guarded (fun hI => keeps_status hI) (keeps_publishStatus stable_stopped)
  have hrunning : Program.Keeps Guarded (onEnv isRunning) := by
    apply keeps_guarded_onEnv
    intro I hI
    apply Program.keeps_bind (keeps_observe hI)
    intro _
    exact Program.keeps_bind Program.keeps_inspect fun _ => Program.keeps_pure
  cases exn with
  | clientDisconnected => exact Program.keeps_bind hrunning fun _ => hstatus _
  | bridge error => exact hstatus _
  | other => exact Program.keeps_bind hrunning fun _ => hstatus _

theorem keeps_stopped_log
    : Program.Keeps (fun w : World => w.env.running = false)
        (Program.rescue (onEnv (logLine v)) fun _ => pure ()) :=
  Program.keeps_rescue (keeps_onEnv_stable (keeps_logLine stable_stopped v)) fun _ => Program.keeps_pure

theorem keeps_guarded_cleanup : Program.Keeps Guarded (cleanup v) := by
  apply keeps_guarded fun hI => keeps_cleanup hI
  apply Program.keeps_bind
  . exact keeps_onPipeline_stable (Pipeline.tidy_resetProcess.keeps stable_stopped)
  intro _
  apply Program.keeps_bind
  . exact keeps_onPipeline_stable (Pipeline.tidy_resetProcess.keeps stable_stopped)
  intro _
  apply Program.keeps_bind
  . exact keeps_onPipeline_stable (Pipeline.tidy_resetSession.keeps stable_stopped)
  intro _
  exact keeps_stopped_log

theorem keeps_guarded_release : Program.Keeps Guarded (release v) := by
  apply keeps_guarded fun hI => keeps_release hI
  apply Program.keeps_bind (keeps_onEnv_stable (keeps_observe stable_stopped))
  intro _
  apply Program.keeps_bind
  . exact Program.keeps_update fun _ hw => hw
  . exact fun _ => keeps_stopped_log

theorem neverRaises_cleanup : Program.NeverRaises (cleanup v) := by
  have hreset : ∀ {m : Program Pipeline Tick Exn Unit}, Pipeline.Tidy m → Program.NeverRaises (onPipeline m) :=
    fun hm => Program.neverRaises_zoom hm.neverRaises
  apply Program.neverRaises_bind (hreset Pipeline.tidy_resetProcess)
  intro _
  apply Program.neverRaises_bind (hreset Pipeline.tidy_resetProcess)
  intro _
  apply Program.neverRaises_bind (hreset Pipeline.tidy_resetSession)
  intro _
  exact Program.neverRaises_rescue fun _ => Program.neverRaises_pure

theorem neverRaises_release : Program.NeverRaises (release v) := by
  apply Program.neverRaises_bind (Program.neverRaises_zoom neverRaises_observe)
  intro _
  apply Program.neverRaises_bind Program.neverRaises_update
  intro _
  exact Program.neverRaises_rescue fun _ => Program.neverRaises_pure

theorem keeps_guarded_handleException (exn : Exn) : Program.Keeps Guarded (handleException v exn) := by
  apply Program.keeps_bind
  . exact Program.keeps_update fun _ hw => hw
  intro _
  apply Program.keeps_bind keeps_guarded_publishException
  exact fun _ => Program.keeps_raise

-- Nothing is sent, and the pipeline is `now`.
def Quiescent (now : Heap) (w : World) : Prop := w.wire = [] ∧ w.heap = now

theorem Quiescent.guarded {now : Heap} (hw : Quiescent now w) : Guarded w := .inl hw.1

theorem keeps_quiescent {m : Program Env Tick Exn α} {now : Heap} : Program.Keeps (Quiescent now) (onEnv m) :=
  Program.keeps_zoom fun _ _ hw => hw

theorem serve_of_handleVideo {now : Heap} (hw : Quiescent now w) (h : handleVideo v w ts = (.error exn, w', us))
    (hw' : ¬ Guarded w')
    : ∃ w₁ ts₁ exn₀ w₂ ts₂ w₃ ts₃, admission v w ts = (.ok (), w₁, ts₁) ∧ Quiescent now w₁
        ∧ serve v w₁ ts₁ = (.error exn₀, w₂, ts₂) ∧ ¬ Guarded w₂
        ∧ handleException v exn₀ w₂ ts₂ = (.error exn, w₃, ts₃) ∧ ¬ Guarded w₃ := by
  have hreach : ¬ Quiescent now (handleVideo v w ts).2.1 := by
    rw [h]
    exact fun hquiescent => hw' hquiescent.guarded
  obtain ⟨w₁, ts₁, hw₁, hadmission, heq₁⟩ :=
    admission_of_handleVideo keeps_quiescent (fun _ hw => hw) hw hreach
  replace h := heq₁.symm.trans h
  obtain ⟨w₂, ts₂, h, hw₂⟩ := Program.error_of_ensuring neverRaises_release keeps_guarded_release h hw'
  have hreach₂ : ¬ Quiescent now w₂ := fun hquiescent => hw₂ hquiescent.guarded
  obtain ⟨_, w₃, ts₃, hlog, hw₃, heq₃⟩ :=
    Program.reaches_of_bind keeps_quiescent hw₁ (by rw [h]; exact hreach₂)
  replace h := heq₃.symm.trans h
  obtain ⟨w₄, ts₄, h, hw₄⟩ := Program.error_of_ensuring neverRaises_cleanup keeps_guarded_cleanup h hw₂
  obtain ⟨exn₀, w₅, ts₅, hserve, h⟩ := Program.error_of_rescue h
  refine ⟨w₃, ts₃, exn₀, w₅, ts₅, w₄, ts₄, hadmission.trans hlog, hw₃, hserve, fun hw₅ => hw₄ ?_, h,
    hw₄⟩
  have hends := keeps_guarded_handleException (v := v) exn₀ w₅ ts₅ hw₅
  rw [h] at hends
  exact hends

def headersDue (v : Setting) : Program World Tick Exn Pipeline.Output := do
  admission v
  let output ← onPipeline (Pipeline.setup v)
  onEnv (logLine v)
  let _ ← onEnv external
  pure output

-- The handler owns a session.
def Alive (h : Heap) : Prop := ∃ id p o, o.session = some id ∧ h.Holds (some id) p o

theorem keeps_alive {m : Program Env Tick Exn α} : Program.Keeps (fun w : World => Alive w.heap) (onEnv m) :=
  Program.keeps_zoom fun _ _ hw => hw

theorem headers_of_serve {now : Heap} (hidle : now.Idle) (hw : Quiescent now w) {t : World} {vs : List Tick}
    (hadmission : admission v t vs = (.ok (), w, ts)) (h : serve v w ts = (.error exn, w', us)) (hw' : ¬ Guarded w')
    : ∃ output w₁ ts₁, headersDue v t vs = (.ok output, w₁, ts₁) ∧ w₁.env.running = true
        ∧ CutShort v.windows (Client.videoHeaders v output.initialMp4).length exn ts₁ us ∧ Alive w'.heap := by
  have hsent : ∀ {w₀ : World}, w₀ = w' → w₀.wire ≠ [] := by
    rintro _ rfl hwire
    exact hw' (.inl hwire)
  have hreach : ∀ {heap : Heap} {w₀ : World}, w₀ = w' → ¬ Quiescent heap w₀ :=
    fun heq hquiescent => hsent heq hquiescent.1
  have hmute : Mute fun w => w.wire = [] := fun _ _ hwire _ _ _ hw => hwire.trans hw
  obtain ⟨output, w₁, ts₁, hsetup, hw₁, heq₁⟩ :=
    Program.reaches_of_bind (keeps_pipeline hmute) hw.1 (hsent (show (serve v w ts).2.1 = w' by rw [h]))
  replace h := heq₁.symm.trans h
  unfold deliver at h
  obtain ⟨p, hrun, rfl⟩ := Program.ok_of_zoom hsetup
  have hdelivers : p.heap.Delivers v output := by
    apply Pipeline.does_setup.yields.of_ok hrun
    rw [show (pipelinePart.get w).heap = now from hw.2]
    exact hidle
  have hquiescent : Quiescent p.heap (pipelinePart.put p w) := ⟨hw₁, rfl⟩
  obtain ⟨_, w₂, ts₂, hlog, hw₂, heq₂⟩ :=
    Program.reaches_of_bind keeps_quiescent hquiescent (hreach (by rw [h]))
  replace h := heq₂.symm.trans h
  obtain ⟨_, w₃, ts₃, hready, hw₃, heq₃⟩ :=
    Program.reaches_of_bind keeps_quiescent hw₂ (hreach (by rw [h]))
  replace h := heq₃.symm.trans h
  have hdue : headersDue v t vs = (.ok output, w₃, ts₃) := by
    rw [headersDue, Program.bind_ok hadmission, Program.bind_ok hsetup, Program.bind_ok hlog]
    exact Program.bind_ok hready
  replace h : (onClient (Client.sendVideoHeaders v output.initialMp4) >>= _ : Program World Tick Exn Unit)
    { w₃ with advertised := some (w₃.heap, output) } ts₃ = _ := h
  rcases Program.error_of_bind h with h | ⟨_, w₄, ts₄, -, h⟩
  . obtain ⟨client, hsend, rfl⟩ := Program.error_of_zoom h
    have hguarded : client.wire ≠ [] ∧ w₃.responseStarted = false ∧ client.env.running = true := by
      simpa [Guarded, clientPart] using hw'
    obtain ⟨hpart, -, hrunning⟩ := hguarded
    obtain ⟨hclient, hcut⟩ := Client.cutShort_of_sendText hsend hw₃.1 hpart hrunning
    refine ⟨output, w₃, ts₃, hdue, hclient, hcut, ?_⟩
    obtain ⟨-, id, q, -, hholds⟩ := hdelivers.serving
    exact ⟨id, some q, _, rfl, hw₃.2 ▸ hholds⟩
  . have hstarted : Mute fun w => w.responseStarted = true := fun _ _ _ _ _ hstarted hw => hstarted.trans hw
    have hends := keeps_chunks (v := v) output.initialMp4 hstarted
      (Program.keeps_zoom fun _ _ hw => hw)
      { w₄ with headers := some w₄.wire.length, responseStarted := true } ts₄ rfl
    replace h : (do
        onClient (Client.sendChunk v output.initialMp4)
        let reason ← transmit v
        finish v reason : Program World Tick Exn Unit)
      { w₄ with headers := some w₄.wire.length, responseStarted := true } ts₄ = _ := h
    rw [h] at hends
    exact absurd (.inr (.inl hends)) hw'

def advance (w : World) (tick : Tick) : World := { w with env := w.env.advance tick }

theorem queueNumber_eq (hw : Alive w.heap)
    : queueNumber (pipelinePart.get w) ts = (do
        let answer ← Pipeline.onEnv observe
        pure answer.count.toNat : Program Pipeline Tick Exn Nat) (pipelinePart.get w) ts := by
  obtain ⟨id, process, o, howner, hheap⟩ := hw
  obtain ⟨session, hsession⟩ : ∃ session, w.heap.sessions = [session] :=
    List.length_eq_one_iff.mp (by simpa using congrArg List.length hheap.sessions)
  have hid : session.id = id := by simpa [hsession] using hheap.sessions
  have hfind : (w.heap.sessions.find? fun session => session.id = id) = some session := by
    simp [hsession, hid]
  have hderef : Pipeline.derefSession (pipelinePart.get w) ts = (.ok session, pipelinePart.get w, ts) := by
    have hheap' : Pipeline.currentHeap (pipelinePart.get w) ts = (.ok w.heap, pipelinePart.get w, ts) := rfl
    unfold Pipeline.derefSession
    rw [Program.bind_ok hheap', hheap.session_eq, howner]
    show Pipeline.sessionAt id (pipelinePart.get w) ts = _
    unfold Pipeline.sessionAt
    rw [Program.bind_ok hheap', hfind]
    rfl
  have hheap' : Pipeline.currentHeap (pipelinePart.get w) ts = (.ok w.heap, pipelinePart.get w, ts) := rfl
  unfold queueNumber
  rw [Program.bind_ok hheap', if_pos (by rw [hheap.session_eq, howner]; rfl), Program.bind_ok hderef]

theorem queueNumber_ok (hw : Alive w.heap) (tick : Tick) (ts : List Tick)
    : onPipeline queueNumber w (tick :: ts) = (.ok tick.count.toNat, w.advance tick, ts) := by
  refine Program.zoom_ok (p := pipelinePart) (r := { env := w.env.advance tick, heap := w.heap }) ?_
  rw [queueNumber_eq hw]
  rfl

theorem ok_of_queueNumber (hw : Alive w.heap) {n : Nat} (h : onPipeline queueNumber w ts = (.ok n, w', us))
    : ∃ tick, ts = tick :: us ∧ w' = w.advance tick := by
  obtain ⟨p, hrun, rfl⟩ := Program.ok_of_zoom h
  rw [queueNumber_eq hw] at hrun
  cases ts with
  | nil => cases hrun
  | cons tick ts =>
    cases hrun
    exact ⟨tick, rfl, rfl⟩

theorem past_queueNumber {β : Type} {f : Nat → Program World Tick Exn β} (hw : Alive w.heap)
    (h : (onPipeline queueNumber >>= f) w ts = (.error exn, w', us))
    : ∃ tick n rest, ts = tick :: rest ∧ f n (w.advance tick) rest = (.error exn, w', us) := by
  rcases Program.error_of_bind h with herror | ⟨n, w₁, rest, hok, h⟩
  . have hends := Program.neverRaises_zoom (p := pipelinePart) Pipeline.tidy_queueNumber.neverRaises w ts trivial
    replace herror : Program.zoom pipelinePart queueNumber w ts = _ := herror
    rw [herror] at hends
    exact hends.elim
  . obtain ⟨tick, rfl, rfl⟩ := ok_of_queueNumber hw hok
    exact ⟨tick, n, rest, rfl, h⟩

-- The answers with which `publish_status` throws.
def SetEndedFails (v : Setting) (ticks : List Tick) : Prop :=
  v.setEndedThrows = true ∧ ∃ cancelled current peak backpressure call,
    ticks = [cancelled, current, peak, backpressure, call] ∧ call.fails ≠ none

def after (w : World) (ticks : List Tick) : World := { w with env := w.env.after ticks }

theorem setEndedFails_of_publishStatus {reason : StreamEndReason} (hw : Alive w.heap)
    (h : publishStatus v reason w ts = (.error exn, w', us))
    : ∃ publication, ts = publication ++ us ∧ SetEndedFails v publication ∧ w' = w.after publication := by
  unfold publishStatus at h
  rw [Program.bind_inspect] at h
  split at h
  . cases h
  . rcases ts with _ | ⟨cancelled, ts⟩
    . cases h
    have hcancelled : onEnv isCancelled w (cancelled :: ts)
        = (.ok (w.advance cancelled).env.cancelled, w.advance cancelled, ts) := rfl
    rw [Program.bind_ok hcancelled] at h
    obtain ⟨current, _, ts₁, rfl, h₁⟩ := past_queueNumber (by exact hw) h
    obtain ⟨peak, _, ts₂, rfl, h₂⟩ := past_queueNumber (by exact hw) h₁
    obtain ⟨backpressure, _, ts₃, rfl, h₃⟩ := past_queueNumber (by exact hw) h₂
    rcases ts₃ with _ | ⟨call, ts₃⟩
    . cases h₃
    let w₁ := w.after [cancelled, current, peak, backpressure]
    have hcall : onEnv observe w₁ (call :: ts₃) = (.ok call, w₁.advance call, ts₃) := rfl
    replace h₃ := (Program.bind_ok hcall).symm.trans h₃
    split at h₃
    . next hthrows =>
      cases h₃
      exact ⟨[cancelled, current, peak, backpressure, call], rfl,
        ⟨hthrows.1, _, _, _, _, _, rfl, hthrows.2⟩, rfl⟩
    . cases h₃

theorem setEndedFails_of_handleException (hw : Alive w.heap)
    (h : handleException v .clientDisconnected w ts = (.error exn, w', us)) (hexn : exn ≠ .clientDisconnected)
    : ∃ running publication, ts = running :: (publication ++ us) ∧ SetEndedFails v publication
        ∧ w'.env = w.env.after (running :: publication) := by
  unfold handleException at h
  rw [Program.bind_update] at h
  rcases Program.error_of_bind h with h | ⟨_, w₁, ts₁, -, h⟩
  . rcases ts with _ | ⟨running, ts⟩
    . cases h
    obtain ⟨publication, rfl, hfails, rfl⟩ := setEndedFails_of_publishStatus (by exact hw) h
    exact ⟨running, publication, rfl, hfails, rfl⟩
  . cases h
    exact absurd rfl hexn

/--
The socket takes a part of the header block, and either nothing more until the timeout, or it fails and
the end cannot be published either.
-/
inductive HeadersCut (v : Setting) (size : Nat) (ticks : List Tick) : Prop where
  | timesOut {rest : List Tick} (hcut : CutShort v.windows size (.bridge Client.clientWriteTimeout) ticks rest)
  | gone {running : Tick} {publication rest : List Tick}
      (hcut : CutShort v.windows size .clientDisconnected ticks (running :: (publication ++ rest)))
      (hfails : SetEndedFails v publication) (hundisturbed : Undisturbed (running :: publication))

theorem headersCut_of_handleVideo {now : Heap} (hidle : now.Idle) (hw : Quiescent now w)
    (h : handleVideo v w ts = (.error exn, w', us)) (hexn : exn ≠ .clientDisconnected) (hw' : ¬ Guarded w')
    : ∃ output w₁ ts₁, headersDue v w ts = (.ok output, w₁, ts₁) ∧ w₁.env.running = true
        ∧ HeadersCut v (Client.videoHeaders v output.initialMp4).length ts₁ := by
  obtain ⟨w₁, ts₁, exn₀, w₂, ts₂, w₃, ts₃, hadmission, hw₁, hserve, hw₂, hhandle, hw₃⟩ :=
    serve_of_handleVideo hw h hw'
  obtain ⟨output, w₄, ts₄, hdue, hrunning, hcut, halive⟩ := headers_of_serve hidle hw₁ hadmission hserve hw₂
  refine ⟨output, w₄, ts₄, hdue, hrunning, ?_⟩
  rcases hcut.exn_eq with rfl | rfl
  . exact .timesOut hcut
  . obtain ⟨running, publication, rfl, hfails, henv⟩ := setEndedFails_of_handleException halive hhandle hexn
    refine .gone hcut hfails ?_
    have hstill : (w₂.env.after (running :: publication)).running = true := by
      rw [← henv]
      simpa [Guarded] using fun hstopped => hw₃ (.inr (.inr hstopped))
    exact (undisturbed_of_after hstill).2

section Forward

theorem triple_publishStatus_raises {reason : StreamEndReason}
    : Program.Triple (fun _ => True) (publishStatus v reason) (fun _ _ => True) (fun e _ => e = .other)
        fun _ => True := by
  have hnever : ∀ {β : Type} {m : Program World Tick Exn β}, Program.NeverRaises m →
      Program.Triple (fun _ => True) m (fun _ _ => True) (fun e _ => e = .other) fun _ => True :=
    fun hm => hm.conseq (fun _ => id) (fun _ _ => id) (fun _ _ => False.elim) fun _ => id
  have hnumber : Program.NeverRaises (onPipeline queueNumber) :=
    Program.neverRaises_zoom Pipeline.tidy_queueNumber.neverRaises
  apply Program.triple_bind (hnever Program.neverRaises_inspect)
  intro started
  apply Program.triple_ite
  . exact fun _ => Program.triple_pure fun _ _ => trivial
  intro _
  apply Program.triple_bind (hnever (Program.neverRaises_zoom neverRaises_isCancelled))
  intro cancelled
  iterate 3
    apply Program.triple_bind (hnever hnumber)
    intro _
  apply Program.triple_bind (hnever (Program.neverRaises_zoom neverRaises_observe))
  intro call
  apply Program.triple_ite
  . exact fun _ => Program.triple_raise fun _ _ => rfl
  intro _
  exact hnever (Program.neverRaises_bind Program.neverRaises_update fun _ => Program.neverRaises_update)

structure Breaks (exn : Exn) (w : World) : Prop where
  exn : exn ≠ .clientDisconnected
  wire : w.wire ≠ []
  responseStarted : w.responseStarted = false

theorem mute_breaks : Mute (Breaks exn) := by
  intro w w' hwire _ _ hstarted hw
  exact ⟨hw.exn, hwire ▸ hw.wire, hstarted.trans hw.responseStarted⟩

theorem breaks_handleException {error : BridgeError}
    : Program.Triple (Breaks (.bridge error)) (handleException v (.bridge error)) (fun _ _ => False) Breaks
        fun _ => True := by
  have hexn : Program.Triple (fun _ => True) (handleException v (.bridge error)) (fun _ _ => True)
      (fun e _ => e ≠ .clientDisconnected) fun _ => True := by
    apply Program.triple_bind (R := fun _ _ => True)
    . exact Program.triple_update fun _ => id
    intro _
    apply Program.triple_bind (R := fun _ _ => True)
    . apply (triple_publishStatus_raises (v := v)).conseq (fun _ => id) (fun _ _ => id)
      . rintro _ _ rfl
        decide
      . exact fun _ => id
    . intro _
      exact Program.triple_raise fun _ _ => by simp
  apply ((triple_exception mute_breaks).and hexn).conseq
  . exact fun _ hw => ⟨hw, trivial⟩
  . exact fun _ _ hw => hw.1.elim
  . exact fun _ _ hw => ⟨hw.2, hw.1.wire, hw.1.responseStarted⟩
  . exact fun _ _ => trivial

theorem publishStatus_of_setEndedFails {reason : StreamEndReason} {publication : List Tick} (hw : Alive w.heap)
    (hunpublished : w.statusPublished = false) (hfails : SetEndedFails v publication)
    : publishStatus v reason w (publication ++ us) = (.error .other, w.after publication, us) := by
  obtain ⟨hthrows, cancelled, current, peak, backpressure, call, rfl, hcall⟩ := hfails
  have hcancelled : ∀ ts, onEnv isCancelled w (cancelled :: ts)
      = (.ok (w.advance cancelled).env.cancelled, w.advance cancelled, ts) := fun _ => rfl
  let w₁ := w.after [cancelled, current, peak, backpressure]
  have hobserve : onEnv observe w₁ (call :: us) = (.ok call, w₁.advance call, us) := rfl
  unfold publishStatus
  rw [Program.bind_inspect, hunpublished]
  refine (Program.bind_ok (hcancelled _)).trans ?_
  refine (Program.bind_ok (queueNumber_ok (by exact hw) current _)).trans ?_
  refine (Program.bind_ok (queueNumber_ok (by exact hw) peak _)).trans ?_
  refine (Program.bind_ok (queueNumber_ok (by exact hw) backpressure _)).trans ?_
  refine (Program.bind_ok hobserve).trans ?_
  rw [if_pos ⟨hthrows, hcall⟩]
  rfl

theorem breaks_of_setEndedFails {running : Tick} {publication : List Tick} (hw : Alive w.heap)
    (hunpublished : w.statusPublished = false) (hfails : SetEndedFails v publication) (hwire : w.wire ≠ [])
    (hstarted : w.responseStarted = false)
    : Program.Ends (fun _ _ => False) Breaks (fun _ => True)
        (handleException v .clientDisconnected w (running :: (publication ++ us))) := by
  have hrunning : ∀ (w : World) ts, onEnv isRunning w (running :: ts)
      = (.ok (w.advance running).env.running, w.advance running, ts) := fun _ _ => rfl
  have hpublish : ∀ w₁ : World, Alive w₁.heap → w₁.statusPublished = false →
      publishException v .clientDisconnected w₁ (running :: (publication ++ us))
        = (.error .other, (w₁.advance running).after publication, us) :=
    fun w₁ hw₁ hunpublished₁ => (Program.bind_ok (hrunning w₁ _)).trans
      (publishStatus_of_setEndedFails (by exact hw₁) hunpublished₁ hfails)
  unfold handleException
  rw [Program.bind_update, Program.bind_error (hpublish _ (by exact hw) (by exact hunpublished))]
  exact ⟨by decide, hwire, hstarted⟩

theorem keeps_admission {I : World → Prop} (hI : ∀ env lease w, I w → I { w with env, lease })
    : Program.Keeps I (admission v) := by
  have henv : ∀ {β : Type} {m : Program Env Tick Exn β}, Program.Keeps I (onEnv m) :=
    Program.keeps_zoom fun env w hw => hI env w.lease w hw
  apply Program.keeps_bind henv
  intro _
  apply Program.keeps_bind
  . apply Program.keeps_bind henv
    intro answer
    apply Program.keeps_ite Program.keeps_pure
    apply Program.keeps_bind
    . exact Program.keeps_update fun w hw => hI _ _ w hw
    . exact fun _ => Program.keeps_pure
  intro reserved
  exact Program.keeps_ite Program.keeps_raise henv

-- The end is not published, and the headers are not sent.
def Early (w : World) : Prop := w.statusPublished = false ∧ w.responseStarted = false

theorem keeps_early_headersDue : Program.Keeps Early (headersDue v) := by
  have henv : ∀ {β : Type} {m : Program Env Tick Exn β}, Program.Keeps Early (onEnv m) :=
    Program.keeps_zoom fun _ _ hw => hw
  apply Program.keeps_bind (keeps_admission fun _ _ _ hw => hw)
  intro _
  apply Program.keeps_bind
  . exact Program.keeps_zoom fun _ _ hw => hw
  intro _
  apply Program.keeps_bind henv
  intro _
  exact Program.keeps_bind henv fun _ => Program.keeps_pure

theorem breaks_kept {m : Program World Tick Exn Unit} (hnever : Program.NeverRaises m)
    (hkeeps : Program.Keeps (Breaks exn) m)
    : Program.Triple (Breaks exn) m (fun _ => Breaks exn) Breaks fun _ => True := by
  apply (hnever.and hkeeps).conseq
  . exact fun _ hw => ⟨trivial, hw⟩
  . exact fun _ _ hw => hw.2
  . exact fun _ _ hw => hw.1.elim
  . exact fun _ _ => trivial

theorem breaks_of_serve (hidle : w.heap.Idle) {output : Pipeline.Output} {w₁ : World} {sends : List Tick}
    (hdue : (do
        let output ← onPipeline (Pipeline.setup v)
        onEnv (logLine v)
        let _ ← onEnv external
        pure output : Program World Tick Exn Pipeline.Output) w ts = (.ok output, w₁, sends))
    (hearly : Early w₁) (hrunning : w₁.env.running = true)
    (hcut : HeadersCut v (Client.videoHeaders v output.initialMp4).length sends)
    : Program.Ends (fun _ _ => False) Breaks (fun _ => True)
        (Program.rescue (serve v) (handleException v) w ts) := by
  obtain ⟨o, w₂, ts₂, hsetup, h⟩ := Program.ok_of_bind hdue
  obtain ⟨_, w₃, ts₃, hlog, h⟩ := Program.ok_of_bind h
  obtain ⟨_, w₄, ts₄, hready, h⟩ := Program.ok_of_bind h
  cases h
  obtain ⟨p, hrun, rfl⟩ := Program.ok_of_zoom hsetup
  have hdelivers : p.heap.Delivers v output := Pipeline.does_setup.yields.of_ok hrun hidle
  have halive : Alive p.heap := by
    obtain ⟨-, id, q, -, hholds⟩ := hdelivers.serving
    exact ⟨id, some q, _, rfl, hholds⟩
  have hlogged := keeps_alive (m := logLine v) (pipelinePart.put p w) ts₂ halive
  rw [hlog] at hlogged
  have hnow := keeps_alive (m := external) w₃ ts₃ hlogged
  rw [hready] at hnow
  have hserve : ∀ {exn : Exn} {client : Client} {us : List Tick},
      Client.sendText v (Client.videoHeaders v output.initialMp4) { env := w₁.env, wire := w₁.wire } sends
        = (.error exn, client, us) →
      serve v w ts = (.error exn, { w₁ with
        env := client.env, wire := client.wire, advertised := some (w₁.heap, output) }, us) := by
    intro exn client us hsend
    have hheaders : onClient (Client.sendVideoHeaders v output.initialMp4)
        { w₁ with advertised := some (w₁.heap, output) } sends
          = (.error exn, { w₁ with
            env := client.env, wire := client.wire, advertised := some (w₁.heap, output) }, us) :=
      Program.zoom_error (p := clientPart) hsend
    unfold serve
    rw [Program.bind_ok hsetup]
    unfold deliver
    rw [Program.bind_ok hlog, Program.bind_ok hready, Program.bind_update]
    exact Program.bind_error hheaders
  have hfails : ∀ {exn : Exn} {us : List Tick},
      CutShort v.windows (Client.videoHeaders v output.initialMp4).length exn sends us →
      ∃ w₅ : World, Program.rescue (serve v) (handleException v) w ts = handleException v exn w₅ us
        ∧ w₅.heap = w₁.heap ∧ w₅.statusPublished = false ∧ w₅.wire ≠ [] ∧ w₅.responseStarted = false := by
    intro exn us hcut
    have hclient : (clientPart.get w₁).env.running = true := hrunning
    obtain ⟨client, hsend, -, hlength⟩ := Client.sendText_of_cutShort hcut hclient
    refine ⟨_, Program.rescue_error (hserve hsend), rfl, hearly.1, ?_, hearly.2⟩
    exact List.length_pos_iff.mp (Nat.zero_lt_of_lt hlength)
  cases hcut with
  | timesOut hcut =>
    obtain ⟨w₅, heq, -, -, hwire, hunstarted⟩ := hfails hcut
    rw [heq]
    exact breaks_handleException w₅ _ ⟨by simp, hwire, hunstarted⟩
  | gone hcut hends _ =>
    obtain ⟨w₅, heq, hheap, hstatus, hwire, hunstarted⟩ := hfails hcut
    rw [heq]
    exact breaks_of_setEndedFails (hheap ▸ hnow) hstatus hends hwire hunstarted

theorem breaks_handleVideo (hidle : w.heap.Idle) (hearly : Early w) {output : Pipeline.Output} {w₁ : World} {sends : List Tick}
    (hdue : headersDue v w ts = (.ok output, w₁, sends)) (hrunning : w₁.env.running = true)
    (hcut : HeadersCut v (Client.videoHeaders v output.initialMp4).length sends)
    : Program.Ends (fun _ _ => False) Breaks (fun _ => True) (handleVideo v w ts) := by
  have hstill := keeps_early_headersDue (v := v) w ts hearly
  rw [hdue] at hstill
  obtain ⟨_, w₂, ts₂, hadmission, hrest⟩ := Program.ok_of_bind hdue
  obtain ⟨_, w₃, ts₃, hcheck, h⟩ := Program.ok_of_bind hadmission
  obtain ⟨reserved, w₄, ts₄, hreserved, h⟩ := Program.ok_of_bind h
  cases reserved with
  | false => cases h
  | true =>
    replace h : onEnv (logLine v) w₄ ts₄ = (.ok (), w₂, ts₂) := h
    have hheap := keeps_admission (v := v) (I := fun w => w.heap.Idle) (fun _ _ _ hw => hw) w ts hidle
    rw [hadmission] at hheap
    have hserve := breaks_of_serve (w := w₂) hheap hrest hstill hrunning hcut
    unfold handleVideo
    rw [Program.bind_ok hcheck, Program.bind_ok hreserved]
    apply Program.ends_ensuring (K := fun _ _ => False) (D := Breaks)
    . rw [Program.bind_ok h]
      apply Program.ends_ensuring (K := fun _ _ => False) (D := Breaks) hserve
      . exact fun _ _ _ => False.elim
      . exact fun e => breaks_kept neverRaises_cleanup (keeps_cleanup mute_breaks)
    . exact fun _ _ _ => False.elim
    . exact fun e => breaks_kept neverRaises_release (keeps_release mute_breaks)

end Forward

end World
end HikBridge
