import HikBridge.Video.Pipeline

/-!
This module contains what the operations of a `/video` handler on its objects do: every construction
finds the place free, every destruction finds nothing that depends on the object, no operation uses
a pointer that owns nothing.
-/

namespace HikBridge

structure Owners where
  session : Option Nat
  ffmpeg : Option Nat
  probeFfmpeg : Option Nat

namespace Owners

def null : Owners := { session := none, ffmpeg := none, probeFfmpeg := none }

def fetching (id : Nat) : Owners := { null with session := some id }

def slot (o : Owners) (s : Slot) : Option Nat :=
  match s with
  | .ffmpeg => o.ffmpeg
  | .probe => o.probeFfmpeg

def setSlot (o : Owners) (s : Slot) (value : Option Nat) : Owners :=
  match s with
  | .ffmpeg => { o with ffmpeg := value }
  | .probe => { o with probeFfmpeg := value }

@[simp]
theorem slot_setSlot (o : Owners) (s : Slot) (value : Option Nat)
    : (o.setSlot s value).slot s = value := by
  cases s <;> rfl

@[simp]
theorem setSlot_setSlot (o : Owners) (s : Slot) (value value' : Option Nat)
    : (o.setSlot s value).setSlot s value' = o.setSlot s value' := by
  cases s <;> rfl

@[simp]
theorem session_setSlot (o : Owners) (s : Slot) (value : Option Nat)
    : (o.setSlot s value).session = o.session := by
  cases s <;> rfl

@[simp]
theorem setSlot_none_fetching (id : Nat) (s : Slot) : (fetching id).setSlot s none = fetching id := by
  cases s <;> rfl

@[simp]
theorem slot_fetching (id : Nat) (s : Slot) : (fetching id).slot s = none := by
  cases s <;> rfl

end Owners

namespace FfmpegProcess

def Stopped (p : FfmpegProcess) : Prop := p.child = false ∧ p.pump = none

-- `stop_process` does nothing when it is called again.
def Settled (p : FfmpegProcess) : Prop := p.stopRequested = true → p.Stopped

-- The pump, if it runs, reads the queue of this session.
def FedBy (p : FfmpegProcess) (session : Nat) : Prop := ∀ id, p.pump = some id → id = session

def stop (p : FfmpegProcess) : FfmpegProcess :=
  { p with stopRequested := true, child := false, pump := none }

def receive (p : FfmpegProcess) (data : Bytes) : FfmpegProcess :=
  { p with output := p.output ++ data, eof := p.eof || data.isEmpty }

-- A process that was constructed and not used yet.
structure New (p : FfmpegProcess) : Prop where
  pump : p.pump = none
  stopRequested : p.stopRequested = false
  output : p.output = []
  eof : p.eof = false

-- What is decided when the process is constructed: only H.265 is encoded by the hardware.
structure Runs (codec : DetectedVideoCodec) (mode : VideoOutputMode) (p : FfmpegProcess) : Prop where
  outputMode : p.outputMode = mode
  hardware : p.hardwareEnabled = true → codec = .H265 ∧ mode = .H264Transcode

theorem New.fedBy {p : FfmpegProcess} (h : p.New) (id : Nat) : p.FedBy id := by
  intro reads hreads
  simp [h.pump] at hreads

theorem New.settled {p : FfmpegProcess} (h : p.New) : p.Settled := by
  intro hstop
  simp [h.stopRequested] at hstop

theorem stopped_stop (p : FfmpegProcess) : p.stop.Stopped := ⟨rfl, rfl⟩

theorem stop_eq_self {p : FfmpegProcess} (h : p.Settled) (hstop : p.stopRequested = true)
    : p.stop = p := by
  obtain ⟨hchild, hpump⟩ := h hstop
  cases p
  simp_all [stop]

end FfmpegProcess

/--
The objects that are alive and the pointers to them. The processes that were destroyed had stopped,
and no pointer was used that owned nothing.
-/
structure Heap.Holds (session : Option Nat) (process : Option FfmpegProcess) (owners : Owners)
    (h : Heap) : Prop where
  sessions : h.sessions.map (·.id) = session.toList
  processes : h.processes = process.toList
  session_eq : h.session = owners.session
  ffmpeg_eq : h.ffmpeg = owners.ffmpeg
  probe_eq : h.probeFfmpeg = owners.probeFfmpeg
  destroyed : ∀ p ∈ h.destroyed, p.Stopped
  defined : h.undefined = false

/--
What holds at every point of a run: at most one session and at most one process are alive, a process
only while a session is, and a pump reads the queue of this session only.
-/
def Heap.Safe (h : Heap) : Prop :=
  ∃ session process owners, h.Holds session process owners ∧
    ∀ p, process = some p → ∃ id, session = some id ∧ p.FedBy id

namespace Heap

variable {session : Option Nat} {process : Option FfmpegProcess} {owners : Owners} {h : Heap}
  {id : Nat} {p : FfmpegProcess}

theorem Holds.safe (hh : h.Holds session process owners)
    (hfed : ∀ p, process = some p → ∃ id, session = some id ∧ p.FedBy id) : h.Safe :=
  ⟨session, process, owners, hh, hfed⟩

theorem Holds.safe_none (hh : h.Holds session none owners) : h.Safe := by
  apply hh.safe
  intro p hp
  cases hp

theorem Holds.safe_some (hh : h.Holds (some id) (some p) owners) (hfed : p.FedBy id) : h.Safe := by
  apply hh.safe
  intro p hp
  cases hp
  exact ⟨id, rfl, hfed⟩

theorem Holds.slot_eq (hh : h.Holds session process owners) (s : Slot)
    : h.slot s = owners.slot s := by
  cases s with
  | ffmpeg => exact hh.ffmpeg_eq
  | probe => exact hh.probe_eq

theorem Holds.setSlot (hh : h.Holds session process owners) (s : Slot) (value : Option Nat)
    : (h.setSlot s value).Holds session process (owners.setSlot s value) := by
  cases s with
  | ffmpeg => exact { hh with ffmpeg_eq := rfl }
  | probe => exact { hh with probe_eq := rfl }

theorem Holds.setSession (hh : h.Holds session process owners) (value : Option Nat)
    : ({ h with session := value } : Heap).Holds session process { owners with session := value } :=
  { hh with session_eq := rfl }

theorem Holds.newSession (hh : h.Holds none process owners)
    : h.newSession.Holds (some h.fresh) process owners :=
  { hh with sessions := by simp [Heap.newSession, hh.sessions] }

theorem Holds.newProcess (hh : h.Holds session none owners) (outputMode : VideoOutputMode)
    (hardwareEnabled : Bool)
    : (h.newProcess outputMode hardwareEnabled).Holds session
        (some { id := h.fresh, outputMode, hardwareEnabled }) owners :=
  { hh with processes := by simp [Heap.newProcess, hh.processes] }

theorem Holds.mapSession (hh : h.Holds session process owners) (id : Nat)
    {f : VideoSession → VideoSession} (hf : ∀ session, (f session).id = session.id)
    : (h.mapSession id f).Holds session process owners := by
  have hid : ∀ session : VideoSession,
      (if session.id = id then f session else session).id = session.id := by
    intro session
    split
    . exact hf session
    . rfl
  exact { hh with sessions := by simp [Heap.mapSession, Function.comp_def, hid, hh.sessions] }

theorem Holds.monitorsCall (hh : h.Holds session process owners) (count : Nat)
    : (h.monitorsCall count).Holds session process owners :=
  { hh with }

theorem Holds.recordSdk (hh : h.Holds session process owners) (id : Nat) (call : SdkCall)
    : (h.recordSdk id call).Holds session process owners :=
  { hh with }

theorem Holds.mapProcess (hh : h.Holds session (some p) owners) (f : FfmpegProcess → FfmpegProcess)
    : (h.mapProcess p.id f).Holds session (some (f p)) owners :=
  { hh with processes := by simp [Heap.mapProcess, hh.processes] }

theorem Holds.freeSession (hh : h.Holds (some id) process owners)
    : (h.freeSession id).Holds none process owners := by
  obtain ⟨session, hsession⟩ : ∃ session, h.sessions = [session] :=
    List.length_eq_one_iff.mp (by simpa using congrArg List.length hh.sessions)
  have hid : session.id = id := by simpa [hsession] using hh.sessions
  exact { hh with sessions := by simp [Heap.freeSession, hsession, hid] }

theorem Holds.freeProcess (hh : h.Holds session (some p) owners) (hstopped : p.Stopped)
    : (h.freeProcess p.id).Holds session none owners := by
  refine { hh with
    processes := by simp [Heap.freeProcess, hh.processes]
    destroyed := ?_ }
  intro q hq
  simp only [Heap.freeProcess, hh.processes, List.mem_append] at hq
  cases hq with
  | inl hq => exact hh.destroyed q hq
  | inr hq =>
    have hqp : q = p := by simpa using hq
    rw [hqp]
    exact hstopped

end Heap

namespace Pipeline

variable {α β : Type} {P H : Heap → Prop} {Q K : α → Heap → Prop} {E D : Exn → Heap → Prop}
  {C C' : Heap → Prop} {v : Setting}

def Does (P : Heap → Prop) (m : Program Pipeline Tick Exn α) (Q : α → Heap → Prop)
    (E : Exn → Heap → Prop) (C : Heap → Prop) : Prop :=
  Program.Triple (fun p => P p.heap) m (fun a p => Q a p.heap) (fun e p => E e p.heap)
    (fun p => C p.heap)

theorem Does.conseq {m : Program Pipeline Tick Exn α} (h : Does H m K D C')
    (hpre : ∀ h, P h → H h) (hpost : ∀ a h, K a h → Q a h) (herror : ∀ e h, D e h → E e h)
    (hcut : ∀ h, C' h → C h) : Does P m Q E C :=
  Program.Triple.conseq h (fun p => hpre p.heap) (fun a p => hpost a p.heap)
    (fun e p => herror e p.heap) fun p => hcut p.heap

theorem Does.pre {m : Program Pipeline Tick Exn α} (h : Does H m Q E C)
    (hpre : ∀ h, P h → H h) : Does P m Q E C :=
  Program.Triple.pre h fun p => hpre p.heap

theorem Does.post {m : Program Pipeline Tick Exn α} (h : Does P m K E C)
    (hpost : ∀ a h, K a h → Q a h) : Does P m Q E C :=
  h.conseq (fun _ => id) hpost (fun _ _ => id) fun _ => id

theorem Does.exists {ι : Type} {P : ι → Heap → Prop} {m : Program Pipeline Tick Exn α}
    (h : ∀ i, Does (P i) m Q E C) : Does (fun h => ∃ i, P i h) m Q E C :=
  Program.Triple.exists h

theorem Does.given {φ : Prop} {m : Program Pipeline Tick Exn α} (h : φ → Does P m Q E C)
    : Does (fun h => φ ∧ P h) m Q E C :=
  Program.Triple.given h

theorem Does.or {m : Program Pipeline Tick Exn α} (h : Does P m Q E C) (h' : Does H m Q E C)
    : Does (fun h => P h ∨ H h) m Q E C :=
  Program.Triple.or h h'

theorem does_pure {value : α} (h : ∀ h, P h → Q value h) : Does P (pure value) Q E C :=
  Program.triple_pure fun p => h p.heap

theorem does_raise {exn : Exn} (h : ∀ h, P h → E exn h)
    : Does P (Program.raise exn : Program Pipeline Tick Exn α) Q E C :=
  Program.triple_raise fun p => h p.heap

theorem does_bind {R : β → Heap → Prop} {m : Program Pipeline Tick Exn β}
    {f : β → Program Pipeline Tick Exn α} (hm : Does P m R E C) (hf : ∀ b, Does (R b) (f b) Q E C)
    : Does P (m >>= f) Q E C :=
  Program.triple_bind hm hf

theorem does_rescue {m : Program Pipeline Tick Exn α} {handler : Exn → Program Pipeline Tick Exn α}
    (hm : Does P m Q D C) (hhandler : ∀ e, Does (D e) (handler e) Q E C)
    : Does P (Program.rescue m handler) Q E C :=
  Program.triple_rescue hm hhandler

theorem does_ite {c : Prop} [Decidable c] {m n : Program Pipeline Tick Exn α}
    (hthen : c → Does P m Q E C) (helse : ¬ c → Does P n Q E C) : Does P (if c then m else n) Q E C :=
  Program.triple_ite hthen helse

theorem does_iterate {I : β → Heap → Prop} {body : β → Program Pipeline Tick Exn (β ⊕ α)} {b : β}
    (hcut : ∀ b h, I b h → C h)
    (hbody : ∀ b, Does (I b) (body b) (fun r h => Sum.elim (fun b => I b h) (fun a => Q a h) r) E C)
    : Does (I b) (Program.iterate body b) Q E C :=
  Program.triple_iterate (I := fun b (p : Pipeline) => I b p.heap) (fun b p => hcut b p.heap) hbody

theorem does_updateHeap {f : Heap → Heap} (h : ∀ h, P h → H (f h))
    : Does P (updateHeap f) (fun _ => H) E C :=
  Program.triple_update fun p => h p.heap

theorem does_onEnv {m : Program Env Tick Exn α} (hexn : ∀ e h, P h → E e h) (hcut : ∀ h, P h → C h)
    : Does P (onEnv m) (fun _ => P) E C := by
  have h : Program.Keeps (fun p : Pipeline => P p.heap) (onEnv m) :=
    Program.keeps_zoom fun _ _ => id
  exact Program.Triple.conseq h (fun _ => id) (fun _ _ => id) (fun e p => hexn e p.heap)
    fun p => hcut p.heap

theorem does_onEnv_noexcept {m : Program Env Tick Exn α} (hm : Program.NeverRaises m)
    (hcut : ∀ h, P h → C h) : Does P (onEnv m) (fun _ => P) E C := by
  have h := Program.triple_zoom (p := envPart) (F := fun p : Pipeline => P p.heap) hm
    fun _ _ => id
  apply Program.Triple.conseq h
  . exact fun _ hp => ⟨trivial, hp⟩
  . exact fun _ _ hp => hp.2
  . exact fun _ _ hp => hp.1.elim
  . exact fun p hp => hcut p.heap hp.2

theorem does_observe (hcut : ∀ h, P h → C h) : Does P (onEnv observe) (fun _ => P) E C :=
  does_onEnv_noexcept neverRaises_observe hcut

theorem does_currentHeap {f : Heap → Program Pipeline Tick Exn α}
    (hf : ∀ h, P h → Does (fun h' => h' = h) (f h) Q E C) : Does P (currentHeap >>= f) Q E C := by
  intro p ts hp
  exact hf p.heap hp p ts rfl

theorem does_peek {f : Heap → Program Pipeline Tick Exn α} (hf : ∀ h, P h → Does P (f h) Q E C)
    : Does P (currentHeap >>= f) Q E C := by
  apply does_currentHeap
  intro h hh
  apply (hf h hh).pre
  intro h' heq
  rw [heq]
  exact hh

section Objects

variable {session : Option Nat} {process : Option FfmpegProcess} {o : Owners} {id : Nat}
  {p : FfmpegProcess}

theorem does_sessionAt_mem (hP : ∀ h, P h → ∃ process o, h.Holds (some id) process o)
    : Does P (sessionAt id) (fun session h => (session.id = id ∧ session ∈ h.sessions) ∧ P h) E C := by
  apply does_currentHeap
  intro h hh
  obtain ⟨process, o, hheap⟩ := hP h hh
  obtain ⟨session, hsession⟩ : ∃ session, h.sessions = [session] :=
    List.length_eq_one_iff.mp (by simpa using congrArg List.length hheap.sessions)
  have hid : session.id = id := by simpa [hsession] using hheap.sessions
  have hfind : (h.sessions.find? fun session => session.id = id) = some session := by
    simp [hsession, hid]
  rw [hfind]
  apply does_pure
  intro h' heq
  rw [heq]
  exact ⟨⟨hid, by simp [hsession]⟩, hh⟩

theorem does_sessionAt (hP : ∀ h, P h → ∃ process o, h.Holds (some id) process o)
    : Does P (sessionAt id) (fun session h => session.id = id ∧ P h) E C :=
  (does_sessionAt_mem hP).post fun _ _ hh => ⟨hh.1.1, hh.2⟩

theorem does_processAt
    : Does (Heap.Holds session (some p) o) (processAt p.id)
        (fun process h => process = p ∧ Heap.Holds session (some p) o h) E C := by
  apply does_peek
  intro h hh
  have hfind : (h.processes.find? fun process => process.id = p.id) = some p := by
    simp [hh.processes]
  rw [hfind]
  exact does_pure fun _ hh => ⟨rfl, hh⟩

theorem does_derefSession (howner : o.session = some id)
    : Does (Heap.Holds (some id) process o) derefSession
        (fun session h => session.id = id ∧ Heap.Holds (some id) process o h) E C := by
  apply does_peek
  intro h hh
  rw [hh.session_eq, howner]
  exact does_sessionAt fun _ hh => ⟨_, _, hh⟩

theorem does_derefSession_mem
    (hP : ∀ h, P h → ∃ id process o, o.session = some id ∧ h.Holds (some id) process o)
    : Does P derefSession (fun session h => session ∈ h.sessions ∧ P h) E C := by
  apply does_currentHeap
  intro h hh
  obtain ⟨id, process, o, howner, hheap⟩ := hP h hh
  rw [hheap.session_eq, howner]
  apply Does.post (K := fun session h' => (session.id = id ∧ session ∈ h'.sessions) ∧ h' = h)
  . apply does_sessionAt_mem
    intro h' heq
    rw [heq]
    exact ⟨process, o, hheap⟩
  . intro session h' hh'
    refine ⟨hh'.1.2, ?_⟩
    rw [hh'.2]
    exact hh

theorem does_deref {s : Slot} (howner : o.slot s = some p.id)
    : Does (Heap.Holds session (some p) o) (deref s)
        (fun process h => process = p ∧ Heap.Holds session (some p) o h) E C := by
  apply does_peek
  intro h hh
  rw [hh.slot_eq, howner]
  exact does_processAt

theorem does_mapSession {f : VideoSession → VideoSession} (hf : ∀ session, (f session).id = session.id)
    : Does (Heap.Holds session process o) (updateHeap fun h => h.mapSession id f)
        (fun _ => Heap.Holds session process o) E C :=
  does_updateHeap fun _ hh => hh.mapSession id hf

theorem does_mapProcess {f : FfmpegProcess → FfmpegProcess}
    : Does (Heap.Holds session (some p) o) (updateHeap fun h => h.mapProcess p.id f)
        (fun _ => Heap.Holds session (some (f p)) o) E C :=
  does_updateHeap fun _ hh => hh.mapProcess f

theorem does_sdkCall {call : Tick → VideoSession → SdkCall} {keep : Tick → VideoSession → VideoSession}
    (hkeep : ∀ answer session, (keep answer session).id = session.id)
    (hcut : ∀ h, h.Holds (some id) process o → C h)
    : Does (Heap.Holds (some id) process o) (sdkCall id call keep)
        (fun _ => Heap.Holds (some id) process o) E C := by
  apply does_bind (does_observe hcut)
  intro answer
  apply does_bind (does_sessionAt fun _ hh => ⟨_, _, hh⟩)
  intro session
  apply Does.given
  intro _
  apply does_bind (does_updateHeap fun _ hh => hh.monitorsCall answer.monitorCalls)
  intro _
  apply does_bind
  . apply does_updateHeap
    intro _ hh
    exact (hh.recordSdk id (call answer session)).mapSession id (hkeep answer)
  . intro _
    exact does_pure fun _ hh => hh

theorem does_joinMonitor (hcut : ∀ h, h.Holds (some id) process o → C h)
    : Does (Heap.Holds (some id) process o) (joinMonitor id)
        (fun _ => Heap.Holds (some id) process o) E C := by
  apply does_bind (does_observe hcut)
  intro answer
  apply does_bind (does_updateHeap fun _ hh => hh.monitorsCall answer.monitorCalls)
  intro _
  exact does_mapSession fun _ => rfl

theorem does_stopStream (hcut : ∀ h, h.Holds (some id) process o → C h)
    : Does (Heap.Holds (some id) process o) (stopStream v id)
        (fun _ => Heap.Holds (some id) process o) E C := by
  unfold stopStream
  apply does_bind (does_sdkCall (by intros; rfl) hcut)
  intro _
  exact does_pure fun _ hh => hh

theorem does_logout (hcut : ∀ h, h.Holds (some id) process o → C h)
    : Does (Heap.Holds (some id) process o) (logout id)
        (fun _ => Heap.Holds (some id) process o) E C := by
  unfold logout
  apply does_bind (does_sdkCall (by intros; rfl) hcut)
  intro _
  exact does_pure fun _ hh => hh

theorem does_destroySession
    : Does (Heap.Holds (some id) none o) (destroySession v id)
        (fun _ => Heap.Holds none none o) E Heap.Safe := by
  have hsafe : ∀ h : Heap, h.Holds (some id) none o → h.Safe := fun _ hh => hh.safe_none
  apply does_bind (does_observe hsafe)
  intro _
  apply does_bind (does_sessionAt fun _ hh => ⟨_, _, hh⟩)
  intro session
  apply Does.given
  intro _
  apply does_bind (does_joinMonitor hsafe)
  intro _
  apply does_bind (does_ite (fun _ => does_stopStream hsafe) fun _ => does_pure fun _ hh => hh)
  intro _
  apply does_bind (does_ite (fun _ => does_logout hsafe) fun _ => does_pure fun _ hh => hh)
  intro _
  apply does_bind (does_onEnv_noexcept (neverRaises_logLineNoexcept v) hsafe)
  intro _
  exact does_updateHeap fun _ hh => hh.freeSession

theorem does_resetSession (howner : o.session = some id)
    : Does (Heap.Holds (some id) none o) (resetSession v)
        (fun _ => Heap.Holds none none { o with session := none }) E Heap.Safe := by
  apply does_peek
  intro h hh
  rw [hh.session_eq, howner]
  apply does_bind (does_updateHeap fun _ hh => hh.setSession none)
  intro _
  exact does_destroySession

theorem does_constructSession
    : Does (Heap.Holds none none o) constructSession
        (fun id => Heap.Holds (some id) none o) (fun _ => Heap.Holds none none o)
        Heap.Safe := by
  apply does_bind (does_onEnv (fun _ _ => id) fun _ hh => hh.safe_none)
  intro _
  apply does_currentHeap
  intro h hh
  have hnew : ∀ h', h' = h → h'.newSession.Holds (some h.fresh) none o := by
    intro h' heq
    rw [heq]
    exact hh.newSession
  apply does_bind (does_updateHeap hnew)
  intro _
  apply does_bind (does_observe fun _ hh => hh.safe_none)
  intro _
  exact does_pure fun _ => id

theorem does_makeSession (howner : o.session = none)
    : Does (Heap.Holds none none o) (makeSession v)
        (fun _ h => ∃ id, h.Holds (some id) none { o with session := some id })
        (fun _ => Heap.Holds none none o) Heap.Safe := by
  apply does_bind does_constructSession
  intro id
  apply does_peek
  intro h hh
  apply does_bind (does_updateHeap fun _ hh => hh.setSession (some id))
  intro _
  rw [hh.session_eq, howner]
  exact does_pure fun _ hh => ⟨id, hh⟩

theorem does_stopProcess (hfed : p.FedBy id) (hsettled : p.Settled)
    : Does (Heap.Holds (some id) (some p) o) (stopProcess p.id)
        (fun _ => Heap.Holds (some id) (some p.stop) o) E Heap.Safe := by
  have hsafe : ∀ q : FfmpegProcess, q.pump = p.pump ∨ q.pump = none →
      ∀ h : Heap, h.Holds (some id) (some q) o → h.Safe := by
    intro q hq h hh
    apply hh.safe_some
    intro reads hreads
    cases hq with
    | inl hq => exact hfed reads (hq ▸ hreads)
    | inr hq => simp [hq] at hreads
  apply does_bind (does_observe (hsafe p (.inl rfl)))
  intro _
  apply does_bind does_processAt
  intro process
  apply Does.given
  intro hprocess
  rw [hprocess]
  apply does_ite
  . intro hstop
    apply does_pure
    rw [p.stop_eq_self hsettled hstop]
    exact fun _ hh => hh
  . intro _
    let requested := { p with stopRequested := true }
    let killed := { requested with child := false }
    apply does_bind does_mapProcess
    intro _
    apply does_bind (does_observe (hsafe requested (.inl rfl)))
    intro _
    apply does_bind (does_mapProcess (p := requested))
    intro _
    apply does_bind (does_observe (hsafe killed (.inl rfl)))
    intro _
    apply does_bind (does_mapProcess (p := killed))
    intro _
    apply does_bind (does_observe (hsafe p.stop (.inr rfl)))
    intro _
    exact does_pure fun _ hh => hh

theorem does_destroyProcess (hfed : p.FedBy id) (hsettled : p.Settled)
    : Does (Heap.Holds (some id) (some p) o) (destroyProcess p.id)
        (fun _ => Heap.Holds (some id) none o) E Heap.Safe := by
  apply does_bind (does_stopProcess hfed hsettled)
  intro _
  apply does_bind (does_observe fun _ hh => hh.safe_some (by simp [FfmpegProcess.FedBy, FfmpegProcess.stop]))
  intro _
  exact does_updateHeap fun _ hh => hh.freeProcess p.stopped_stop

theorem does_resetProcess_none {s : Slot} (howner : o.slot s = none)
    : Does (Heap.Holds session process o) (resetProcess s)
        (fun _ => Heap.Holds session process o) E C := by
  apply does_peek
  intro h hh
  rw [hh.slot_eq, howner]
  exact does_pure fun _ => id

theorem does_resetProcess {s : Slot} (howner : o.slot s = some p.id) (hfed : p.FedBy id)
    (hsettled : p.Settled)
    : Does (Heap.Holds (some id) (some p) o) (resetProcess s)
        (fun _ => Heap.Holds (some id) none (o.setSlot s none)) E Heap.Safe := by
  apply does_peek
  intro h hh
  rw [hh.slot_eq, howner]
  apply does_bind (does_updateHeap fun _ hh => hh.setSlot s none)
  intro _
  exact does_destroyProcess hfed hsettled

theorem does_assignProcess {s : Slot} {value : Option Nat} (howner : o.slot s = none)
    : Does (Heap.Holds session process o) (assignProcess s value)
        (fun _ => Heap.Holds session process (o.setSlot s value)) E C := by
  apply does_peek
  intro h hh
  apply does_bind (does_updateHeap fun _ hh => hh.setSlot s value)
  intro _
  rw [hh.slot_eq, howner]
  exact does_pure fun _ => id

theorem does_startChild (hfed : p.FedBy id)
    : Does (Heap.Holds (some id) (some p) o) (startChild v p.id)
        (fun _ => Heap.Holds (some id) (some { p with child := true }) o)
        (fun _ h => ∃ child, h.Holds (some id) (some { p with child }) o) Heap.Safe := by
  have hsafe : ∀ h : Heap, h.Holds (some id) (some p) o → h.Safe :=
    fun _ hh => hh.safe_some hfed
  have hsafe' : ∀ h : Heap, h.Holds (some id) (some { p with child := true }) o → h.Safe :=
    fun _ hh => hh.safe_some hfed
  apply does_bind (does_onEnv (fun _ _ hh => ⟨p.child, hh⟩) hsafe)
  intro _
  apply does_bind does_mapProcess
  intro _
  apply does_bind (does_onEnv (fun _ _ hh => ⟨true, hh⟩) hsafe')
  intro _
  exact does_onEnv (fun _ _ hh => ⟨true, hh⟩) hsafe'

theorem does_constructProcess {mode : VideoOutputMode} {forceSoftware : Bool}
    : Does (Heap.Holds (some id) none o) (constructProcess v mode forceSoftware)
        (fun pid h => ∃ p, (p.id = pid ∧ p.New ∧ p.outputMode = mode ∧
          p.hardwareEnabled = v.selectPlan mode forceSoftware) ∧ h.Holds (some id) (some p) o)
        (fun _ => Heap.Holds (some id) none o) Heap.Safe := by
  apply does_bind (does_onEnv (fun _ _ hh => hh) fun _ hh => hh.safe_none)
  intro _
  apply does_currentHeap
  intro h hh
  let p : FfmpegProcess :=
    { id := h.fresh, outputMode := mode, hardwareEnabled := v.selectPlan mode forceSoftware }
  have hnew : p.New := ⟨rfl, rfl, rfl, rfl⟩
  have hfed : ∀ child, ({ p with child } : FfmpegProcess).FedBy id := fun _ => hnew.fedBy id
  have hset : ∀ h', h' = h →
      (h'.newProcess mode (v.selectPlan mode forceSoftware)).Holds (some id) (some p) o := by
    intro h' heq
    rw [heq]
    exact hh.newProcess _ _
  apply does_bind (does_updateHeap hset)
  intro _
  -- what the catch clause of `make_unique` finds
  let Failed (h : Heap) : Prop :=
    ∃ q : FfmpegProcess, (q.id = p.id ∧ q.Stopped) ∧ h.Holds (some id) (some q) o
  have hfree : ∀ e, Does Failed
      (do
        updateHeap fun heap => heap.freeProcess p.id
        Program.raise e : Program Pipeline Tick Exn Unit)
      (fun _ h => ∃ child, h.Holds (some id) (some { p with child }) o)
      (fun _ => Heap.Holds (some id) none o) Heap.Safe := by
    intro e
    apply Does.exists
    intro q
    apply Does.given
    intro ⟨hid, hstopped⟩
    rw [← hid]
    apply does_bind (does_updateHeap fun _ hh => hh.freeProcess hstopped)
    intro _
    exact does_raise fun _ hh => hh
  have hstop : ∀ e, Does (fun h => ∃ child, h.Holds (some id) (some { p with child }) o)
      (do
        stopProcess p.id
        Program.raise e : Program Pipeline Tick Exn Unit)
      (fun _ h => ∃ child, h.Holds (some id) (some { p with child }) o)
      (fun _ => Failed) Heap.Safe := by
    intro e
    apply Does.exists
    intro child
    have hsettled : FfmpegProcess.Settled { p with child } := by simp [FfmpegProcess.Settled, p]
    apply does_bind (does_stopProcess (hfed child) hsettled)
    intro _
    apply does_raise
    intro _ hh
    exact ⟨FfmpegProcess.stop { p with child }, ⟨rfl, FfmpegProcess.stopped_stop _⟩, hh⟩
  have hbody : Does (Heap.Holds (some id) (some p) o)
      (do
        onEnv (checkClient v)
        Program.rescue (startChild v p.id) fun exn => do
          stopProcess p.id
          Program.raise exn)
      (fun _ h => ∃ child, h.Holds (some id) (some { p with child }) o)
      (fun _ => Failed) Heap.Safe := by
    apply does_bind (does_onEnv (fun _ h hh => ⟨p, ⟨rfl, rfl, rfl⟩, hh⟩) fun _ hh => hh.safe_some (hfed false))
    intro _
    apply does_rescue _ hstop
    exact (does_startChild (hfed false)).post fun _ _ hh => ⟨true, hh⟩
  apply does_bind (does_rescue hbody hfree)
  intro _
  apply does_pure
  intro _ ⟨child, hh⟩
  exact ⟨{ p with child }, ⟨rfl, ⟨rfl, rfl, rfl, rfl⟩, rfl, rfl⟩, hh⟩

theorem does_makeProcess {s : Slot} {mode : VideoOutputMode} {forceSoftware : Bool}
    (howner : o.slot s = none)
    : Does (Heap.Holds (some id) none o) (makeProcess v s mode forceSoftware)
        (fun _ h => ∃ p, (p.New ∧ p.outputMode = mode ∧
          p.hardwareEnabled = v.selectPlan mode forceSoftware) ∧
          h.Holds (some id) (some p) (o.setSlot s (some p.id)))
        (fun _ => Heap.Holds (some id) none o) Heap.Safe := by
  apply does_bind does_constructProcess
  intro pid
  apply Does.exists
  intro p
  apply Does.given
  intro ⟨hid, hnew⟩
  rw [← hid]
  apply (does_assignProcess howner).post
  intro _ _ hh
  exact ⟨p, hnew, hh⟩

theorem does_moveProbe (hprobe : o.probeFfmpeg = some p.id) (hffmpeg : o.ffmpeg = none)
    : Does (Heap.Holds session (some p) o) moveProbe
        (fun _ => Heap.Holds session (some p)
          { o with probeFfmpeg := none, ffmpeg := some p.id }) E C := by
  apply does_peek
  intro h hh
  apply does_bind (does_updateHeap fun _ hh => hh.setSlot .probe none)
  intro _
  rw [hh.probe_eq, hprobe]
  exact does_assignProcess hffmpeg

theorem does_startPump {s : Slot} (hsession : o.session = some id)
    (howner : o.slot s = some p.id) (hnew : p.New)
    : Does (Heap.Holds (some id) (some p) o) (startPump s)
        (fun _ => Heap.Holds (some id) (some { p with pump := some id }) o)
        (fun _ => Heap.Holds (some id) (some p) o) Heap.Safe := by
  apply does_bind (does_derefSession hsession)
  intro session
  apply Does.given
  intro hid
  apply does_bind (does_deref howner)
  intro process
  apply Does.given
  intro hprocess
  rw [hprocess, hid, hnew.pump]
  apply does_bind (does_onEnv (fun _ _ hh => hh) fun _ hh => hh.safe_some (hnew.fedBy id))
  intro _
  exact does_mapProcess

theorem does_stopForPipelineSwitch {s : Slot} (howner : o.slot s = some p.id)
    (hfed : p.FedBy id) (hsettled : p.Settled)
    : Does (Heap.Holds (some id) (some p) o) (stopForPipelineSwitch s)
        (fun _ => Heap.Holds (some id) (some p.stop) o) E Heap.Safe := by
  apply does_bind (does_deref howner)
  intro process
  apply Does.given
  intro hprocess
  rw [hprocess]
  exact does_stopProcess hfed hsettled

end Objects

def Stays (P : Heap → Prop) (m : Program Pipeline Tick Exn α) : Prop :=
  Does P m (fun _ => P) (fun _ => P) P

theorem stays_onEnv {m : Program Env Tick Exn α} : Stays P (onEnv m) :=
  does_onEnv (fun _ _ hh => hh) fun _ hh => hh

theorem stays_pure {value : α} : Stays P (pure value) := does_pure fun _ hh => hh

theorem stays_raise {exn : Exn} : Stays P (Program.raise exn : Program Pipeline Tick Exn α) :=
  does_raise fun _ hh => hh

theorem stays_bind {m : Program Pipeline Tick Exn β} {f : β → Program Pipeline Tick Exn α}
    (hm : Stays P m) (hf : ∀ b, Stays P (f b)) : Stays P (m >>= f) :=
  does_bind hm hf

theorem stays_env {m : Program Env Tick Exn β} {f : β → Program Pipeline Tick Exn α}
    (hf : ∀ b, Stays P (f b)) : Stays P (onEnv m >>= f) :=
  does_bind stays_onEnv hf

theorem stays_ite {c : Prop} [Decidable c] {m n : Program Pipeline Tick Exn α} (hthen : Stays P m)
    (helse : Stays P n) : Stays P (if c then m else n) :=
  does_ite (fun _ => hthen) fun _ => helse

theorem stays_rescue {m : Program Pipeline Tick Exn α} {handler : Exn → Program Pipeline Tick Exn α}
    (hm : Stays P m) (hhandler : ∀ e, Stays P (handler e)) : Stays P (Program.rescue m handler) :=
  does_rescue hm hhandler

theorem stays_iterate {body : β → Program Pipeline Tick Exn (β ⊕ α)} {b : β}
    (hbody : ∀ b, Stays P (body b)) : Stays P (Program.iterate body b) :=
  Program.keeps_iterate hbody

section Sessions

variable {id : Nat} {process : Option FfmpegProcess} {o : Owners}

structure Steady (id : Nat) (P : Heap → Prop) : Prop where
  sessionAt : Stays P (sessionAt id)
  monitorsCall : ∀ count h, P h → P (h.monitorsCall count)
  recordSdk : ∀ call h, P h → P (h.recordSdk id call)
  mapSession : ∀ f : VideoSession → VideoSession, (∀ session, (f session).id = session.id) →
    ∀ h, P h → P (h.mapSession id f)

theorem steady_holds : Steady id (Heap.Holds (some id) process o) where
  sessionAt := (does_sessionAt fun _ hh => ⟨_, _, hh⟩).post fun _ _ hh => hh.2
  monitorsCall count _ hh := hh.monitorsCall count
  recordSdk call _ hh := hh.recordSdk id call
  mapSession _ hf _ hh := hh.mapSession id hf

theorem stays_updateHeap {f : Heap → Heap} (hf : ∀ h, P h → P (f h)) : Stays P (updateHeap f) :=
  does_updateHeap hf

theorem stays_mapSession (hP : Steady id P) {f : VideoSession → VideoSession}
    (hf : ∀ session, (f session).id = session.id) : Stays P (updateHeap fun h => h.mapSession id f) :=
  stays_updateHeap (hP.mapSession f hf)

theorem stays_sdkCall (hP : Steady id P) {call : Tick → VideoSession → SdkCall}
    {keep : Tick → VideoSession → VideoSession}
    (hkeep : ∀ answer session, (keep answer session).id = session.id)
    : Stays P (sdkCall id call keep) := by
  apply stays_env
  intro answer
  apply stays_bind hP.sessionAt
  intro session
  apply stays_bind (stays_updateHeap (hP.monitorsCall answer.monitorCalls))
  intro _
  apply stays_bind
  . apply stays_updateHeap
    intro h hh
    exact hP.mapSession _ (hkeep answer) _ (hP.recordSdk _ h hh)
  . intro _
    exact stays_pure

theorem stays_useUser (hP : Steady id P) : Stays P (useUser id) :=
  stays_sdkCall hP fun _ _ => rfl

theorem stays_useHandle (hP : Steady id P) : Stays P (useHandle id) :=
  stays_sdkCall hP fun _ _ => rfl

theorem stays_openStream (hP : Steady id P) {option : StreamOption} : Stays P (openStream id option) :=
  stays_sdkCall hP fun _ _ => rfl

theorem stays_joinMonitor (hP : Steady id P) : Stays P (joinMonitor id) := by
  apply stays_env
  intro answer
  apply stays_bind (stays_updateHeap (hP.monitorsCall answer.monitorCalls))
  intro _
  apply stays_mapSession hP
  intro _
  rfl

theorem stays_stopStream (hP : Steady id P) : Stays P (stopStream v id) := by
  apply stays_bind (stays_sdkCall hP (by intros; rfl))
  intro _
  exact stays_pure

theorem stays_logout (hP : Steady id P) : Stays P (logout id) := by
  apply stays_bind (stays_sdkCall hP (by intros; rfl))
  intro _
  exact stays_pure

theorem stays_destroySession (hP : Steady id P) (hfree : ∀ h, P h → P (h.freeSession id))
    : Stays P (destroySession v id) := by
  apply stays_env
  intro _
  apply stays_bind hP.sessionAt
  intro _
  apply stays_bind (stays_joinMonitor hP)
  intro _
  apply stays_bind (stays_ite (stays_stopStream hP) stays_pure)
  intro _
  apply stays_bind (stays_ite (stays_logout hP) stays_pure)
  intro _
  apply stays_env
  intro _
  exact stays_updateHeap hfree

theorem stays_readVideoStreamConfiguration (huse : Stays P (useUser id))
    (hcodec : ∀ codec, ∀ h, P h →
      P (h.mapSession id fun session => { session with configuredVideoCodec := codec }))
    : Stays P (readVideoStreamConfiguration v id) := by
  apply stays_ite stays_pure
  apply stays_bind huse
  intro compression
  apply stays_ite stays_onEnv
  apply stays_bind
  . apply stays_ite _ stays_pure
    apply stays_bind (stays_updateHeap (hcodec _))
    intro _
    exact stays_onEnv
  intro _
  apply stays_ite stays_pure
  apply stays_ite stays_pure
  apply stays_bind huse
  intro _
  exact stays_onEnv

theorem stays_prepare (hP : Steady id P) : Stays P (prepare v id) := by
  apply stays_env
  intro _
  apply stays_bind hP.sessionAt
  intro session
  apply stays_ite stays_pure
  iterate 3
    apply stays_env
    intro _
  apply stays_bind (stays_sdkCall hP (by intros; rfl))
  intro login
  apply stays_env
  intro _
  apply stays_ite stays_raise
  apply stays_env
  intro _
  apply stays_bind (stays_useUser hP)
  intro _
  iterate 4
    apply stays_env
    intro _
  apply stays_bind
  . apply stays_readVideoStreamConfiguration (stays_useUser hP)
    intro codec
    exact hP.mapSession _ fun _ => rfl
  intro _
  apply stays_env
  intro _
  apply stays_mapSession hP
  intro _
  rfl

theorem stays_waitForFirstData : Stays P (waitForFirstData v) := by
  apply does_iterate (I := fun _ => P) (fun _ _ hh => hh)
  intro _
  apply does_bind stays_onEnv
  intro first
  apply does_ite
  . intro _
    exact does_pure fun _ hh => hh
  . intro _
    apply does_bind stays_onEnv
    intro _
    apply does_bind stays_onEnv
    intro clock
    apply does_ite
    . intro _
      exact does_raise fun _ hh => hh
    . intro _
      exact does_pure fun _ hh => hh

theorem stays_requestRealplayKeyframe (huse : Stays P (useUser id))
    : Stays P (requestRealplayKeyframe v id) := by
  apply stays_ite stays_pure
  apply stays_bind huse
  intro _
  exact stays_onEnv

theorem stays_startRealplay (hP : Steady id P) : Stays P (startRealplay v id) := by
  unfold startRealplay
  apply stays_bind (stays_openStream hP)
  intro preview
  apply stays_ite stays_raise
  apply stays_env
  intro _
  exact stays_requestRealplayKeyframe (stays_useUser hP)

theorem stays_control (huse : Stays P (useHandle id)) : Stays P (control id) := by
  apply stays_bind huse
  intro answer
  exact stays_ite stays_raise stays_pure

theorem stays_controls (huse : Stays P (useHandle id)) (steps : Nat)
    : Stays P (controls id steps) := by
  induction steps with
  | zero => exact stays_pure
  | succ steps ih =>
    apply stays_bind (stays_control huse)
    intro _
    exact ih

theorem stays_startPlayback (hP : Steady id P) : Stays P (startPlayback v id) := by
  unfold startPlayback
  apply stays_bind (stays_openStream hP)
  intro playback
  apply stays_ite stays_raise
  apply stays_bind (stays_useHandle hP)
  intro callback
  apply stays_ite stays_raise
  apply stays_bind (stays_control (stays_useHandle hP))
  intro _
  apply stays_bind (stays_controls (stays_useHandle hP) v.speedSteps)
  intro _
  iterate 2
    apply stays_env
    intro _
  apply stays_mapSession hP
  intro _
  rfl

theorem stays_startStream (hP : Steady id P) : Stays P (startStream v id) := by
  apply stays_env
  intro _
  apply stays_bind
  . cases v.request.option with
    | RealPlay => exact stays_startRealplay hP
    | Playback => exact stays_startPlayback hP
  intro _
  apply stays_bind
  . apply stays_mapSession hP
    intro _
    rfl
  . intro _
    exact stays_onEnv

theorem stays_startStreamAndWaitForData (hP : Steady id P)
    : Stays P (startStreamAndWaitForData v id) := by
  apply stays_bind (stays_prepare hP)
  intro _
  apply stays_env
  intro _
  apply stays_bind hP.sessionAt
  intro session
  apply stays_bind (stays_ite stays_pure (stays_startStream hP))
  intro _
  apply stays_bind stays_waitForFirstData
  intro _
  apply stays_env
  intro _
  apply stays_env
  intro overflow
  exact stays_ite stays_raise stays_onEnv

theorem stays_start (howner : o.session = some id)
    : Stays (Heap.Holds (some id) process o) (start v) := by
  apply does_bind (does_derefSession howner)
  intro session
  apply Does.given
  intro hid
  rw [hid]
  apply stays_bind (stays_prepare steady_holds)
  intro _
  exact stays_startStreamAndWaitForData steady_holds

end Sessions

section Output

variable {id : Nat} {p : FfmpegProcess} {o : Owners}

def Answered (id : Nat) (p : FfmpegProcess) (o : Owners) (r : Option Bytes) (h : Heap) : Prop :=
  match r with
  | none => h.Holds (some id) (some p) o
  | some data => h.Holds (some id) (some (p.receive data)) o

theorem does_received {data : Bytes}
    : Does (Heap.Holds (some id) (some p) o) (received p.id data) (Answered id p o) E C := by
  apply does_bind does_mapProcess
  intro _
  exact does_pure fun _ hh => hh

theorem does_readOutputLinux {size : Nat}
    : Does (Heap.Holds (some id) (some p) o) (readOutputLinux p.id size)
        (Answered id p o) (fun _ => Heap.Holds (some id) (some p) o)
        (Heap.Holds (some id) (some p) o) := by
  apply does_bind stays_onEnv
  intro ready
  apply does_ite
  . intro _
    exact does_pure fun _ hh => hh
  . intro _
    apply does_bind stays_onEnv
    intro answer
    apply does_ite
    . intro _
      exact does_pure fun _ hh => hh
    . intro _
      exact does_received

theorem does_readOutputWindows {size : Nat}
    : Does (Heap.Holds (some id) (some p) o) (readOutputWindows v p.id size)
        (Answered id p o) (fun _ => Heap.Holds (some id) (some p) o)
        (Heap.Holds (some id) (some p) o) := by
  apply does_iterate (I := fun _ => Heap.Holds (some id) (some p) o) (fun _ _ hh => hh)
  intro _
  apply does_bind stays_onEnv
  intro clock
  apply does_ite
  . intro _
    exact does_pure fun _ hh => hh
  . intro _
    apply does_bind stays_onEnv
    intro _
    apply does_bind stays_onEnv
    intro _
    apply does_bind stays_onEnv
    intro answer
    apply does_ite
    . intro _
      apply does_bind does_received
      intro data
      exact does_pure fun _ hh => hh
    . intro _
      apply does_bind stays_onEnv
      intro exited
      apply does_ite
      . intro _
        apply does_bind does_received
        intro data
        exact does_pure fun _ hh => hh
      . intro _
        exact does_pure fun _ hh => hh

theorem does_readOutputTimeout {size : Nat}
    : Does (Heap.Holds (some id) (some p) o) (readOutputTimeout v p.id size)
        (Answered id p o) (fun _ => Heap.Holds (some id) (some p) o)
        (Heap.Holds (some id) (some p) o) :=
  does_ite (fun _ => does_readOutputWindows) fun _ => does_readOutputLinux

structure Unready (requireMediaFragment : Bool) (initial output : Bytes) : Prop where
  continues : initial <+: output
  unready : mediaReady initial requireMediaFragment = false → mediaReady output requireMediaFragment = false

theorem does_readLoop {result : Bytes} {requireMediaFragment : Bool} (hfed : p.FedBy id)
    (houtput : p.output = result) (heof : p.eof = false)
    : Does (Heap.Holds (some id) (some p) o) (readLoop v p.id result requireMediaFragment)
        (fun r h => ∃ eof, ((r.1 = true → eof = false ∧ mediaReady r.2 requireMediaFragment = true) ∧
            result <+: r.2 ∧ (r.1 = false → Unready requireMediaFragment result r.2)) ∧
          h.Holds (some id) (some { p with output := r.2, eof }) o)
        (fun _ h => ∃ output eof, Unready requireMediaFragment result output ∧
          h.Holds (some id) (some { p with output, eof }) o)
        Heap.Safe := by
  let I (now : Bytes) (h : Heap) : Prop :=
    Unready requireMediaFragment result now ∧ h.Holds (some id) (some { p with output := now }) o
  apply Does.pre (H := I result)
  . apply does_iterate (I := I) fun _ _ hh => hh.2.safe_some hfed
    intro now
    apply Does.given
    intro hnow
    let H : Heap → Prop := Heap.Holds (some id) (some { p with output := now }) o
    have hsafe : ∀ h, H h → h.Safe := fun _ hh => hh.safe_some hfed
    have hexn : ∀ (_ : Exn) h, H h → ∃ output eof, Unready requireMediaFragment result output ∧
        h.Holds (some id) (some { p with output, eof }) o :=
      fun _ _ hh => ⟨now, p.eof, hnow, hh⟩
    apply does_bind (does_onEnv hexn hsafe)
    intro clock
    apply does_ite
    . intro _
      apply does_pure
      intro _ hh
      exact ⟨p.eof, ⟨nofun, hnow.continues, fun _ => hnow⟩, hh⟩
    . intro _
      apply does_bind (does_onEnv hexn hsafe)
      intro _
      apply does_bind (does_onEnv hexn hsafe)
      intro _
      apply does_bind
      . apply Does.conseq (does_readOutputTimeout (p := { p with output := now }))
        . exact fun _ hh => hh
        . exact fun _ _ hh => hh
        . exact hexn
        . exact hsafe
      . intro readSize
        cases readSize with
        | none => exact does_pure fun _ hh => ⟨hnow, hh⟩
        | some data =>
          cases data with
          | nil =>
            apply does_pure
            intro _ hh
            refine ⟨true, ⟨nofun, hnow.continues, fun _ => hnow⟩, ?_⟩
            simpa [Answered, FfmpegProcess.receive, heof] using hh
          | cons byte data =>
            have hmore : ∀ h, Answered id { p with output := now } o (some (byte :: data)) h →
                h.Holds (some id) (some { p with output := now ++ byte :: data }) o := by
              intro h hh
              simpa [Answered, FfmpegProcess.receive] using hh
            have hcontinues : result <+: now ++ byte :: data :=
              hnow.continues.trans (List.prefix_append _ _)
            apply does_ite
            . intro hready
              apply does_pure
              intro h hh
              exact ⟨p.eof, ⟨fun _ => ⟨heof, hready⟩, hcontinues, nofun⟩, hmore h hh⟩
            . intro hready
              apply does_pure
              exact fun h hh => ⟨⟨hcontinues, fun _ => Bool.eq_false_iff.mpr hready⟩, hmore h hh⟩
  . intro h hh
    refine ⟨⟨List.prefix_rfl, fun hresult => hresult⟩, ?_⟩
    rw [← houtput]
    exact hh

theorem does_readUntilReady {s : Slot} {result : Bytes} {requireMediaFragment : Bool}
    (howner : o.slot s = some p.id) (hfed : p.FedBy id) (houtput : p.output = result)
    (heof : p.eof = false)
    : Does (Heap.Holds (some id) (some p) o) (readUntilReady v s result requireMediaFragment)
        (fun ready h => (mediaReady ready requireMediaFragment = true ∧ result <+: ready) ∧
          h.Holds (some id) (some { p with output := ready }) o)
        (fun _ h => ∃ output eof, Unready requireMediaFragment result output ∧
          h.Holds (some id) (some { p with output, eof }) o)
        Heap.Safe := by
  apply does_bind (does_deref howner)
  intro process
  apply Does.given
  intro hprocess
  rw [hprocess]
  apply does_bind (does_readLoop hfed houtput heof)
  intro ⟨ready, output⟩
  apply Does.exists
  intro eof
  apply Does.given
  intro ⟨hready, hcontinues, hunready⟩
  apply does_ite
  . intro h
    obtain ⟨rfl, hmedia⟩ := hready h
    apply does_pure
    intro _ hh
    rw [← heof] at hh
    exact ⟨⟨hmedia, hcontinues⟩, hh⟩
  . intro h
    have hfailed := hunready (Bool.eq_false_iff.mpr h)
    apply does_ite
    . intro _
      exact does_raise fun _ hh => ⟨output, eof, hfailed, hh⟩
    . intro _
      exact does_raise fun _ hh => ⟨output, eof, hfailed, hh⟩

end Output

end Pipeline
end HikBridge
