import HikBridge.Video.Objects
import HikBridge.Video.Setup

/-!
This module contains the stages through which `handle_video` moves its pipeline, and that it does so
in every run: whatever throws, every object is owned, and released after the objects that need it.
-/

namespace HikBridge

namespace Heap

-- No object is alive.
def Idle : Heap → Prop := Holds none none .null

-- The session is alive and no process is.
def Fetching (h : Heap) : Prop := ∃ id, h.Holds (some id) none (.fetching id)

-- The session feeds the process that the slot owns.
def Transcoding (s : Slot) (K : FfmpegProcess → Prop) (h : Heap) : Prop :=
  ∃ id p, (p.FedBy id ∧ p.Settled ∧ K p) ∧
    h.Holds (some id) (some p) ((Owners.fetching id).setSlot s (some p.id))

-- What the handler finds where a statement threw.
def Between (h : Heap) : Prop := h.Fetching ∨ h.Transcoding .ffmpeg fun _ => True

def Resting (h : Heap) : Prop := h.Idle ∨ h.Fetching ∨ ∃ s, h.Transcoding s fun _ => True

-- `prefix` is what was read so far from the process that the slot owns.
def Reading (s : Slot) (codec : DetectedVideoCodec) (mode : VideoOutputMode) (initialMp4 : Bytes)
    : Heap → Prop :=
  Transcoding s fun p => (p.output = initialMp4 ∧ p.eof = false) ∧ p.Runs codec mode

def Serving (codec : DetectedVideoCodec) (mode : VideoOutputMode) (initialMp4 : Bytes) (h : Heap)
    : Prop :=
  Pipeline.mediaReady initialMp4 true = true ∧ h.Reading .ffmpeg codec mode initialMp4

-- The pipeline that `setup` leaves. It copies only where that is allowed and no H.265 was seen.
structure Delivers (v : Setting) (o : Pipeline.Output) (h : Heap) : Prop where
  serving : h.Serving o.codec o.mode o.initialMp4
  copy : o.mode = .Copy → v.h264CopyAllowed = true ∧ detectVideoCodec o.initialMp4 ≠ .H265

variable {h : Heap} {s : Slot} {K K' : FfmpegProcess → Prop}

theorem Transcoding.mono (hh : h.Transcoding s K) (hK : ∀ p, K p → K' p) : h.Transcoding s K' := by
  obtain ⟨id, p, ⟨hfed, hsettled, hp⟩, hh⟩ := hh
  exact ⟨id, p, ⟨hfed, hsettled, hK p hp⟩, hh⟩

theorem Idle.resting (hh : h.Idle) : h.Resting := .inl hh

theorem Fetching.resting (hh : h.Fetching) : h.Resting := .inr (.inl hh)

theorem Transcoding.resting (hh : h.Transcoding s K) : h.Resting :=
  .inr (.inr ⟨s, hh.mono fun _ _ => trivial⟩)

theorem Between.resting (hh : h.Between) : h.Resting := by
  cases hh with
  | inl hh => exact hh.resting
  | inr hh => exact hh.resting

theorem Idle.safe (hh : h.Idle) : h.Safe := Holds.safe_none hh

theorem Fetching.safe (hh : h.Fetching) : h.Safe := by
  obtain ⟨id, hh⟩ := hh
  exact hh.safe_none

theorem Transcoding.safe (hh : h.Transcoding s K) : h.Safe := by
  obtain ⟨id, p, ⟨hfed, _⟩, hh⟩ := hh
  exact hh.safe_some hfed

theorem Resting.safe (hh : h.Resting) : h.Safe := by
  rcases hh with hh | hh | ⟨s, hh⟩
  . exact hh.safe
  . exact hh.safe
  . exact hh.safe

theorem Fetching.ffmpeg_eq (hh : h.Fetching) : h.ffmpeg = none := by
  obtain ⟨id, hh⟩ := hh
  exact hh.ffmpeg_eq

theorem Transcoding.ffmpeg_isSome (hh : h.Transcoding .ffmpeg K)
    : h.ffmpeg.isSome = true := by
  obtain ⟨id, p, _, hh⟩ := hh
  rw [hh.ffmpeg_eq]
  rfl

end Heap

namespace Pipeline

open Heap (Idle Fetching Transcoding Between Resting Reading Serving Delivers Safe)

variable {v : Setting} {s : Slot} {K : FfmpegProcess → Prop} {α : Type}
  {Q : α → Heap → Prop} {E : Exn → Heap → Prop} {C : Heap → Prop} {codec : DetectedVideoCodec}
  {mode : VideoOutputMode}

theorem Does.transcoding {m : Program Pipeline Tick Exn α}
    (h : ∀ id p, p.FedBy id → p.Settled → K p →
      Does (Heap.Holds (some id) (some p) ((Owners.fetching id).setSlot s (some p.id))) m Q E C)
    : Does (Transcoding s K) m Q E C := by
  apply Does.exists
  intro id
  apply Does.exists
  intro p
  apply Does.given
  intro ⟨hfed, hsettled, hK⟩
  exact h id p hfed hsettled hK

theorem does_openSession : Does Idle (openSession v) (fun _ => Fetching) (fun _ => Resting) Safe := by
  apply does_bind
  . apply Does.conseq (does_makeSession (v := v) (o := .null) rfl)
    . exact fun _ hh => hh
    . exact fun _ _ hh => hh
    . exact fun _ _ hh => Heap.Idle.resting hh
    . exact fun _ hh => hh
  . intro _
    apply Does.exists
    intro id
    apply does_bind (does_derefSession rfl)
    intro session
    apply Does.given
    intro hid
    rw [hid]
    apply Does.conseq (stays_prepare steady_holds)
    . exact fun _ hh => hh
    . exact fun _ _ hh => ⟨id, hh⟩
    . exact fun _ _ hh => Heap.Fetching.resting ⟨id, hh⟩
    . exact fun _ hh => hh.safe_none

theorem does_restartSession
    : Does Fetching (restartSession v) (fun _ => Fetching) (fun _ => Resting) Safe := by
  apply Does.exists
  intro id
  apply does_bind (does_resetSession rfl)
  intro _
  exact does_openSession

theorem does_logLine {P : Heap → Prop} (hexn : ∀ h, P h → Resting h)
    : Does P (onEnv (logLine v)) (fun _ => P) (fun _ => Resting) Safe :=
  does_onEnv (fun _ => hexn) fun h hh => (hexn h hh).safe

theorem does_restartSessionAfterProbe
    : Does Fetching (restartSessionAfterProbe v) (fun _ => Fetching) (fun _ => Resting) Safe := by
  apply does_bind does_restartSession
  intro _
  exact does_logLine fun _ hh => hh.resting

theorem does_start_fetching
    : Does Fetching (start v) (fun _ => Fetching) (fun _ => Resting) Safe := by
  apply Does.exists
  intro id
  apply Does.conseq (stays_start (v := v) (o := .fetching id) rfl)
  . exact fun _ hh => hh
  . exact fun _ _ hh => ⟨id, hh⟩
  . exact fun _ _ hh => Heap.Fetching.resting ⟨id, hh⟩
  . exact fun _ hh => hh.safe_none

theorem does_start_transcoding
    : Does (Transcoding s K) (start v) (fun _ => Transcoding s K) (fun _ => Resting) Safe := by
  apply Does.transcoding
  intro id p hfed hsettled hK
  have hback : ∀ h : Heap,
      h.Holds (some id) (some p) ((Owners.fetching id).setSlot s (some p.id)) → h.Transcoding s K :=
    fun _ hh => ⟨id, p, ⟨hfed, hsettled, hK⟩, hh⟩
  apply Does.conseq (stays_start (v := v)
    (o := (Owners.fetching id).setSlot s (some p.id)) (by simp; rfl))
  . exact fun _ hh => hh
  . exact fun _ h hh => hback h hh
  . exact fun _ h hh => (hback h hh).resting
  . exact fun h hh => (hback h hh).safe

theorem does_stopAndReset
    : Does (Transcoding s K) (stopAndReset s) (fun _ => Fetching) (fun _ => Resting) Safe := by
  apply Does.transcoding
  intro id p hfed hsettled _
  apply does_bind (does_stopForPipelineSwitch (by simp) hfed hsettled)
  intro _
  apply Does.conseq (does_resetProcess (p := p.stop) (s := s) (E := fun _ => Resting)
    (o := (Owners.fetching id).setSlot s (some p.id)) (by simp; rfl) _ _)
  . exact fun _ hh => hh
  . intro _ h hh
    refine ⟨id, ?_⟩
    simpa using hh
  . exact fun _ _ hh => hh
  . exact fun _ hh => hh
  . simp [FfmpegProcess.FedBy, FfmpegProcess.stop]
  . exact fun _ => p.stopped_stop

theorem does_makeProcess_fetching {forceSoftware : Bool}
    (h : v.selectPlan mode forceSoftware = true → codec = .H265 ∧ mode = .H264Transcode)
    : Does Fetching (makeProcess v s mode forceSoftware)
        (fun _ => Transcoding s fun p => p.New ∧ p.Runs codec mode) (fun _ => Fetching) Safe := by
  apply Does.exists
  intro id
  apply Does.conseq (does_makeProcess (v := v) (o := .fetching id) (s := s) (by simp))
  . exact fun _ hh => hh
  . intro _ _ ⟨p, ⟨hnew, hmode, hhardware⟩, hh⟩
    have hruns : p.Runs codec mode := ⟨hmode, fun htrue => h (by rw [← hhardware, htrue])⟩
    exact ⟨id, p, ⟨hnew.fedBy id, hnew.settled, hnew, hruns⟩, hh⟩
  . exact fun _ _ hh => ⟨id, hh⟩
  . exact fun _ hh => hh

theorem does_startPump_new
    : Does (Transcoding s fun p => p.New ∧ p.Runs codec mode) (startPump s)
        (fun _ => Reading s codec mode []) (fun _ => Transcoding s fun _ => True) Safe := by
  apply Does.transcoding
  intro id p hfed hsettled ⟨hnew, hruns⟩
  apply Does.conseq (does_startPump (s := s) (p := p)
    (o := (Owners.fetching id).setSlot s (some p.id)) (by simp; rfl) (by simp) hnew)
  . exact fun _ hh => hh
  . intro _ h hh
    refine ⟨id, { p with pump := some id }, ⟨?_, ?_, ⟨hnew.output, hnew.eof⟩, hruns.1, hruns.2⟩, hh⟩
    . intro reads hreads
      injection hreads with hreads
      exact hreads.symm
    . intro hstop
      simp [hnew.stopRequested] at hstop
  . exact fun _ h hh => ⟨id, p, ⟨hfed, hsettled, trivial⟩, hh⟩
  . exact fun _ hh => hh

theorem does_readUntilReady_reading {initialMp4 : Bytes} {requireMediaFragment : Bool}
    : Does (Reading s codec mode initialMp4) (readUntilReady v s initialMp4 requireMediaFragment)
        (fun result h => (mediaReady result requireMediaFragment = true ∧ initialMp4 <+: result) ∧
          h.Reading s codec mode result)
        (fun _ => Transcoding s fun p => Unready requireMediaFragment initialMp4 p.output ∧
          p.Runs codec mode)
        Safe := by
  apply Does.transcoding
  intro id p hfed hsettled ⟨⟨houtput, heof⟩, hruns⟩
  apply Does.conseq (does_readUntilReady (v := v) (s := s) (p := p)
    (o := (Owners.fetching id).setSlot s (some p.id)) (by simp) hfed houtput heof)
  . exact fun _ hh => hh
  . intro result h ⟨hmedia, hh⟩
    exact ⟨hmedia, id, { p with output := result },
      ⟨hfed, hsettled, ⟨rfl, heof⟩, hruns.1, hruns.2⟩, hh⟩
  . intro _ h ⟨output, eof, hunready, hh⟩
    exact ⟨id, { p with output, eof }, ⟨hfed, hsettled, hunready, hruns.1, hruns.2⟩, hh⟩
  . exact fun _ hh => hh

theorem selectPlan_useSoftware {forceSoftware : Bool}
    (h : v.selectPlan mode (forceSoftware || codec != .H265) = true)
    : codec = .H265 ∧ mode = .H264Transcode := by
  cases codec <;> cases mode <;> simp [Setting.selectPlan] at h ⊢

theorem does_startPipeline {forceSoftware : Bool}
    : Does Fetching (startPipeline v codec mode forceSoftware) (Serving codec mode)
        (fun _ => Between) Safe := by
  apply does_bind
  . apply (does_makeProcess_fetching selectPlan_useSoftware).conseq
    . exact fun _ hh => hh
    . exact fun _ _ hh => hh
    . exact fun _ _ hh => .inl hh
    . exact fun _ hh => hh
  . intro _
    apply does_bind
    . apply does_startPump_new.conseq
      . exact fun _ hh => hh
      . exact fun _ _ hh => hh
      . exact fun _ _ hh => .inr hh
      . exact fun _ hh => hh
    . intro _
      apply does_readUntilReady_reading.conseq
      . exact fun _ hh => hh
      . exact fun _ _ hh => ⟨hh.1.1, hh.2⟩
      . exact fun _ _ hh => .inr (hh.mono fun _ _ => trivial)
      . exact fun _ hh => hh

theorem does_startPipeline_resting {forceSoftware : Bool}
    : Does Fetching (startPipeline v codec mode forceSoftware) (Serving codec mode)
        (fun _ => Resting) Safe := by
  apply does_startPipeline.conseq
  . exact fun _ hh => hh
  . exact fun _ _ hh => hh
  . exact fun _ _ hh => hh.resting
  . exact fun _ hh => hh

theorem does_softwareFallback {error : BridgeError}
    : Does Between (softwareFallback v codec mode error) (Serving codec mode) (fun _ => Resting)
        Safe := by
  apply Does.or
  . apply does_peek
    intro h hh
    rw [hh.ffmpeg_eq]
    exact does_raise fun _ hh => hh.resting
  . apply does_peek
    intro h hh
    obtain ⟨pid, hpid⟩ := Option.isSome_iff_exists.mp hh.ffmpeg_isSome
    rw [hpid]
    apply Does.transcoding
    intro id p hfed hsettled _
    have hback : ∀ h : Heap,
        h.Holds (some id) (some p) ((Owners.fetching id).setSlot .ffmpeg (some p.id)) →
        h.Transcoding .ffmpeg fun _ => True :=
      fun _ hh => ⟨id, p, ⟨hfed, hsettled, trivial⟩, hh⟩
    apply does_bind (does_deref (by simp))
    intro process
    apply Does.pre (H := Transcoding .ffmpeg fun _ => True)
    . apply does_ite
      . intro _
        exact does_raise fun _ hh => hh.resting
      . intro _
        apply does_bind (does_logLine fun _ hh => hh.resting)
        intro _
        apply does_bind does_stopAndReset
        intro _
        exact does_startPipeline_resting
    . exact fun h hh => hback h hh.2

-- What `openOutput` leaves behind: a delivering process, or the need to fall back from copying.
def Opened (codec : DetectedVideoCodec) (mode : VideoOutputMode) (r : Option Bytes) (h : Heap)
    : Prop :=
  match r with
  | some initialMp4 => h.Serving codec mode initialMp4
  | none => h.Between

theorem does_openOutput_reading {initialMp4 : Bytes}
    : Does (Reading .ffmpeg codec mode initialMp4) (openOutput v codec mode initialMp4)
        (Opened codec mode) (fun _ => Resting) Safe := by
  apply does_peek
  intro h hh
  rw [hh.ffmpeg_isSome]
  apply does_rescue
  . apply does_bind does_readUntilReady_reading
    intro result
    exact does_pure fun _ hh => ⟨hh.1.1, hh.2⟩
  . intro exn
    cases exn with
    | bridge error =>
      apply does_ite
      . intro _
        exact does_raise fun _ hh => hh.resting
      . intro _
        apply does_bind (does_logLine fun _ hh => hh.resting)
        intro _
        exact does_pure fun _ hh => .inr (hh.mono fun _ _ => trivial)
    | clientDisconnected => exact does_raise fun _ hh => hh.resting
    | other => exact does_raise fun _ hh => hh.resting

theorem does_openOutput_fetching {initialMp4 : Bytes}
    : Does Fetching (openOutput v codec mode initialMp4) (Opened codec mode) (fun _ => Resting)
        Safe := by
  apply does_peek
  intro h hh
  rw [hh.ffmpeg_eq]
  apply does_rescue
  . apply does_bind does_startPipeline
    intro result
    exact does_pure fun _ hh => hh
  . intro exn
    cases exn with
    | bridge error =>
      apply does_ite
      . intro _
        apply does_bind (does_logLine fun _ hh => hh.resting)
        intro _
        exact does_pure fun _ hh => hh
      . intro _
        apply does_bind does_softwareFallback
        intro result
        exact does_pure fun _ hh => hh
    | clientDisconnected => exact does_raise fun _ hh => hh.resting
    | other => exact does_raise fun _ hh => hh.resting

theorem does_stopFailedCopy
    : Does (Transcoding .ffmpeg K) (stopFailedCopy v) (fun _ => Fetching) (fun _ => Resting)
        Safe := by
  apply Does.transcoding
  intro id p hfed hsettled hK
  apply does_bind (does_deref (by simp))
  intro process
  apply Does.pre (H := Transcoding .ffmpeg K)
  . apply does_bind (does_logLine fun _ hh => hh.resting)
    intro _
    exact does_stopAndReset
  . exact fun _ hh => ⟨id, p, ⟨hfed, hsettled, hK⟩, hh.2⟩

theorem does_copyFallback
    : Does Between (copyFallback v codec) (Serving codec .H264Transcode) (fun _ => Resting)
        Safe := by
  have hrest : Does Fetching
      (do
        restartSession v
        start v
        let initialMp4 ← startPipeline v codec .H264Transcode true
        onEnv (logLine v)
        pure initialMp4)
      (Serving codec .H264Transcode) (fun _ => Resting) Safe := by
    apply does_bind does_restartSession
    intro _
    apply does_bind does_start_fetching
    intro _
    apply does_bind does_startPipeline_resting
    intro initialMp4
    apply does_bind (does_logLine fun _ hh => hh.2.resting)
    intro _
    exact does_pure fun _ hh => hh
  apply Does.or
  . apply does_peek
    intro h hh
    rw [hh.ffmpeg_eq]
    apply does_bind (R := fun _ => Fetching)
    . exact does_pure fun _ hh => hh
    . intro _
      exact hrest
  . apply does_peek
    intro h hh
    rw [hh.ffmpeg_isSome]
    apply does_bind does_stopFailedCopy
    intro _
    exact hrest

theorem does_codecMismatch
    : Does (Transcoding .ffmpeg K) (codecMismatch v) (Serving .H265 .H264Transcode)
        (fun _ => Resting) Safe := by
  apply does_bind (does_logLine fun _ hh => hh.resting)
  intro _
  apply does_bind (does_onEnv (fun _ _ hh => hh.resting) fun _ hh => hh.safe)
  intro _
  apply does_bind does_stopAndReset
  intro _
  apply does_rescue does_startPipeline
  intro exn
  cases exn with
  | bridge error => exact does_softwareFallback
  | clientDisconnected => exact does_raise fun _ hh => hh.resting
  | other => exact does_raise fun _ hh => hh.resting

-- A probe that is reused delivers already, and it copies.
def Reused (v : Setting) (d : Detection) (h : Heap) : Prop :=
  (d.restartSessionAfterProbe = false ∧ outputMode v d.codec = .Copy) ∧
    h.Reading .ffmpeg d.codec .Copy d.initialMp4

-- What the detection of the codec leaves behind.
def Detected (v : Setting) (d : Detection) (h : Heap) : Prop :=
  h.Fetching ∨ (h.Transcoding .probe fun _ => True) ∨ Reused v d h

theorem Reused.reading {d : Detection} {h : Heap} (hh : Reused v d h)
    : h.Reading .ffmpeg d.codec (outputMode v d.codec) d.initialMp4 := by
  rw [hh.1.2]
  exact hh.2

theorem does_moveProbe_reading {initialMp4 : Bytes}
    : Does (Reading .probe codec mode initialMp4) moveProbe
        (fun _ => Reading .ffmpeg codec mode initialMp4) E Safe := by
  apply Does.transcoding
  intro id p hfed hsettled hread
  apply Does.conseq (does_moveProbe (p := p) (E := E) (C := Safe)
    (o := (Owners.fetching id).setSlot .probe (some p.id)) rfl rfl)
  . exact fun _ hh => hh
  . exact fun _ _ hh => ⟨id, p, ⟨hfed, hsettled, hread⟩, hh⟩
  . exact fun _ _ hh => hh
  . exact fun _ hh => hh

theorem selectPlan_copy (codec : DetectedVideoCodec) (h : v.selectPlan .Copy false = true)
    : codec = .H265 ∧ VideoOutputMode.Copy = .H264Transcode := by
  simp [Setting.selectPlan] at h

-- What the probe leaves behind. It goes on to deliver only what it has recognised.
def Probed (v : Setting) (d : Detection) (h : Heap) : Prop :=
  (outputMode v d.codec ≠ .Copy ∧ h.Transcoding .probe fun _ => True) ∨
    (detectVideoCodec d.initialMp4 ≠ .Unknown ∧ Reused v d h)

theorem Probed.detected {d : Detection} {h : Heap} (hh : Probed v d h) : Detected v d h :=
  .inr (hh.imp And.right And.right)

theorem does_probeCodec : Does Fetching (probeCodec v) (Probed v) (fun _ => Resting) Safe := by
  apply does_bind (does_logLine fun _ hh => hh.resting)
  intro _
  apply does_bind does_start_fetching
  intro _
  apply does_bind
  . apply (does_makeProcess_fetching (selectPlan_copy .H264)).conseq
    . exact fun _ hh => hh
    . exact fun _ _ hh => hh
    . exact fun _ _ hh => hh.resting
    . exact fun _ hh => hh
  . intro _
    apply does_bind
    . apply does_startPump_new.conseq
      . exact fun _ hh => hh
      . exact fun _ _ hh => hh
      . exact fun _ _ hh => hh.resting
      . exact fun _ hh => hh
    . intro _
      apply does_bind (R := fun probePrefix => Reading .probe .H264 .Copy probePrefix)
      . apply does_readUntilReady_reading.conseq
        . exact fun _ hh => hh
        . exact fun _ _ hh => hh.2
        . exact fun _ _ hh => hh.resting
        . exact fun _ hh => hh
      . intro probePrefix
        apply does_bind (does_logLine fun _ hh => hh.resting)
        intro _
        apply does_bind (does_onEnv (fun _ _ hh => hh.resting) fun _ hh => hh.safe)
        intro _
        apply does_ite
        . intro hcodec
          have hnamed : detectVideoCodec probePrefix ≠ .Unknown := by
            rw [hcodec]
            nofun
          rw [hcodec]
          apply does_ite
          . intro hallowed
            apply does_bind does_moveProbe_reading
            intro _
            apply does_bind (does_logLine fun _ hh => hh.resting)
            intro _
            apply does_pure
            exact fun _ hh => .inr ⟨hnamed, ⟨rfl, by simp [outputMode, hallowed]⟩, hh⟩
          . intro hallowed
            apply does_pure
            exact fun _ hh => .inl ⟨by simp [outputMode, hallowed], hh.mono fun _ _ => trivial⟩
        . intro hcodec
          apply does_pure
          exact fun _ hh => .inl ⟨by simp [outputMode, hcodec], hh.mono fun _ _ => trivial⟩

theorem does_detectCodec : Does Idle (detectCodec v) (Detected v) (fun _ => Resting) Safe := by
  apply does_bind does_openSession
  intro _
  apply does_bind (does_onEnv (fun _ _ hh => hh.resting) fun _ hh => hh.safe)
  intro cached
  apply does_ite
  . intro _
    apply does_bind (does_logLine fun _ hh => hh.resting)
    intro _
    exact does_pure fun _ hh => .inl hh
  . intro _
    apply Does.exists
    intro id
    apply does_bind (does_derefSession rfl)
    intro session
    apply Does.pre (H := Fetching)
    . apply does_ite
      . intro _
        apply does_bind (does_onEnv (fun _ _ hh => hh.resting) fun _ hh => hh.safe)
        intro _
        apply does_bind (does_logLine fun _ hh => hh.resting)
        intro _
        exact does_pure fun _ hh => .inl hh
      . intro _
        exact does_probeCodec.post fun _ _ hh => hh.detected
    . exact fun _ hh => ⟨id, hh.2⟩

-- The pipeline before the output is opened.
def Ready (v : Setting) (d : Detection) (h : Heap) : Prop :=
  h.Fetching ∨ h.Reading .ffmpeg d.codec (outputMode v d.codec) d.initialMp4

theorem does_stopProbe {d : Detection}
    : Does (Detected v d) (stopProbe v) (fun _ h => h.Fetching ∨ Reused v d h) (fun _ => Resting)
        Safe := by
  have hnone : ∀ {P : Heap → Prop}, (∀ h, P h → h.probeFfmpeg = none) →
      Does P (stopProbe v) (fun _ => P) (fun _ => Resting) Safe := by
    intro P hP
    apply does_peek
    intro h hh
    rw [hP h hh]
    exact does_pure fun _ hh => hh
  apply Does.or
  . apply (hnone (P := Fetching) fun _ ⟨id, hh⟩ => hh.probe_eq).post
    exact fun _ _ hh => .inl hh
  apply Does.or
  . apply does_peek
    intro h ⟨id, p, _, hh⟩
    rw [hh.probe_eq]
    apply does_bind does_stopAndReset
    intro _
    apply (does_logLine fun _ hh => hh.resting).post
    exact fun _ _ hh => .inl hh
  . apply (hnone (P := Reused v d) fun _ ⟨_, id, p, _, hh⟩ => hh.probe_eq).post
    exact fun _ _ hh => .inr hh

theorem does_ensureSession {d : Detection}
    : Does (Ready v d) (ensureSession v) (fun _ => Ready v d) (fun _ => Resting) Safe := by
  apply Does.or
  . apply does_peek
    intro h ⟨id, hh⟩
    rw [hh.session_eq]
    apply does_bind (R := fun _ => Fetching)
    . exact does_pure fun _ hh => hh
    . intro _
      apply Does.exists
      intro id
      apply does_bind (does_derefSession rfl)
      intro session
      apply Does.pre (H := Fetching)
      . apply does_ite
        . intro _
          exact does_pure fun _ hh => .inl hh
        . intro _
          exact does_start_fetching.post fun _ _ hh => .inl hh
      . exact fun _ hh => ⟨id, hh.2⟩
  . apply does_peek
    intro h ⟨id, p, _, hh⟩
    rw [hh.session_eq]
    apply does_bind (R := fun _ => Reading .ffmpeg d.codec (outputMode v d.codec) d.initialMp4)
    . exact does_pure fun _ hh => hh
    . intro _
      apply Does.transcoding
      intro id p hfed hsettled hread
      apply does_bind (does_derefSession rfl)
      intro session
      apply Does.pre (H := Reading .ffmpeg d.codec (outputMode v d.codec) d.initialMp4)
      . apply does_ite
        . intro _
          exact does_pure fun _ hh => .inr hh
        . intro _
          exact does_start_transcoding.post fun _ _ hh => .inr hh
      . exact fun _ hh => ⟨id, p, ⟨hfed, hsettled, hread⟩, hh.2⟩

/--
The `try` block of `handle_video` up to the first media fragment: it ends with a process that has
delivered the prefix, or with objects that all are owned.
-/
theorem outputMode_copy (h : outputMode v codec = .Copy) : v.h264CopyAllowed = true := by
  unfold outputMode at h
  split at h
  . next hcodec =>
    rw [Bool.and_eq_true] at hcodec
    exact hcodec.2
  . contradiction

theorem does_setup : Does Idle (setup v) (Delivers v) (fun _ => Resting) Safe := by
  apply does_bind does_detectCodec
  intro d
  have hdetected : ∀ h, Detected v d h → Resting h := by
    intro h hh
    rcases hh with hh | hh | ⟨_, hh⟩
    . exact hh.resting
    . exact hh.resting
    . exact hh.resting
  apply does_bind (does_logLine hdetected)
  intro _
  apply does_bind (R := fun _ => Detected v d)
  . apply does_ite
    . intro _
      exact does_logLine hdetected
    . intro _
      exact does_pure fun _ hh => hh
  intro _
  apply does_bind does_stopProbe
  intro _
  apply does_bind (R := fun _ => Ready v d)
  . apply does_ite
    . intro hrestart
      apply Does.pre (H := Fetching)
      . exact does_restartSessionAfterProbe.post fun _ _ hh => .inl hh
      . intro _ hh
        rcases hh with hh | ⟨⟨hfalse, _⟩, _⟩
        . exact hh
        . rw [hfalse] at hrestart
          contradiction
    . intro _
      exact does_pure fun _ hh => hh.imp id fun hreused => hreused.reading
  intro _
  apply does_bind does_ensureSession
  intro _
  apply does_bind
  . apply Does.or
    . exact does_openOutput_fetching
    . exact does_openOutput_reading
  intro opened
  cases opened with
  | none =>
    apply does_bind does_copyFallback
    intro initialMp4
    exact does_pure fun _ hh => ⟨hh, by simp⟩
  | some initialMp4 =>
    apply does_ite
    . intro _
      apply does_bind (does_codecMismatch.pre fun _ hh => hh.2)
      intro initialMp4
      exact does_pure fun _ hh => ⟨hh, by simp⟩
    . intro hcopied
      apply does_pure
      exact fun _ hh => ⟨hh, fun hcopy =>
        ⟨outputMode_copy hcopy, fun hcodec => hcopied ⟨hcopy, hcodec⟩⟩⟩

end Pipeline
end HikBridge
