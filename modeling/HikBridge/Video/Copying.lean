import HikBridge.Video.Detection
import HikBridge.Video.Lasting
import HikBridge.Video.Response

/-!
This module contains when the response advertises the codec that it carries: what the codec cache, the
device, the probe and the output of the process that copies have to do with it.
-/

namespace HikBridge

-- The process copies, and its first media fragment is complete and names no codec.
structure FfmpegProcess.Unnamed (p : FfmpegProcess) : Prop where
  copies : p.outputMode = .Copy
  mediaReady : Pipeline.mediaReady p.output true = true
  codec : detectVideoCodec p.output = .Unknown

namespace Heap

def NamedDestroyed (h : Heap) : Prop := ∀ p ∈ h.destroyed, ¬ p.Unnamed

def Named (h : Heap) : Prop := h.NamedDestroyed ∧ ∀ p ∈ h.processes, ¬ p.Unnamed

theorem Transcoding.named {h : Heap} {s : Slot} {K : FfmpegProcess → Prop} (hh : h.Transcoding s K)
    (hdestroyed : h.NamedDestroyed) (hK : ∀ p, K p → ¬ p.Unnamed) : h.Named := by
  obtain ⟨id, p, ⟨_, _, hp⟩, hholds⟩ := hh
  refine ⟨hdestroyed, fun q hq => ?_⟩
  rw [hholds.processes] at hq
  rw [List.mem_singleton.mp hq]
  exact hK p hp

end Heap

namespace Pipeline

open Heap (Idle Fetching Transcoding Between Reading Serving Named NamedDestroyed)

variable {v : Setting} {α β : Type} {P H : Heap → Prop} {Q K : α → Heap → Prop} {s : Slot}
  {codec : DetectedVideoCodec} {mode : VideoOutputMode}

theorem unnamed_of_same {p q : FfmpegProcess} (houtput : q.output = p.output)
    (hmode : q.outputMode = p.outputMode) (h : q.Unnamed) : p.Unnamed :=
  ⟨hmode ▸ h.copies, houtput ▸ h.mediaReady, houtput ▸ h.codec⟩

theorem lasting_named : Lasting Named where
  undefined _ hh := hh
  setSlot s _ _ hh := by
    cases s with
    | ffmpeg => exact hh
    | probe => exact hh
  setSession _ _ hh := hh
  sessions _ _ _ _ hh := hh
  mapProcess id f hf h hh := by
    refine ⟨hh.1, fun q hq => ?_⟩
    obtain ⟨p, hp, rfl⟩ := List.mem_map.mp hq
    intro hunnamed
    split at hunnamed
    . exact hh.2 p hp (unnamed_of_same (hf p).1 (hf p).2.2 hunnamed)
    . exact hh.2 p hp hunnamed
  freeProcess id h hh := by
    refine ⟨fun q hq => ?_, fun q hq => hh.2 q (List.mem_filter.mp hq).1⟩
    cases List.mem_append.mp hq with
    | inl hq => exact hh.1 q hq
    | inr hq => exact hh.2 q (List.mem_filter.mp hq).1

theorem detectVideoCodec_append {xs ys : Bytes} (h : detectVideoCodec xs ≠ .Unknown)
    : detectVideoCodec (xs ++ ys) ≠ .Unknown := by
  have hhevc : containsAtom xs "hvcC" = true → containsAtom (xs ++ ys) "hvcC" = true :=
    containsAtom_append (by decide)
  have havc : containsAtom xs "avcC" = true → containsAtom (xs ++ ys) "avcC" = true :=
    containsAtom_append (by decide)
  unfold detectVideoCodec at h ⊢
  grind

theorem not_mediaReady_nil : mediaReady [] true = false := by
  simp [mediaReady, initialized, containsAtom_nil]

theorem named_newProcess (hardwareEnabled : Bool) (h : Heap) (hh : h.Named)
    : (h.newProcess mode hardwareEnabled).Named := by
  refine ⟨hh.1, fun q hq => ?_⟩
  cases List.mem_append.mp hq with
  | inl hq => exact hh.2 q hq
  | inr hq =>
    rw [List.mem_singleton.mp hq]
    intro hunnamed
    have hready : mediaReady [] true = true := hunnamed.mediaReady
    rw [not_mediaReady_nil] at hready
    cases hready

def Yields (P : Heap → Prop) (m : Program Pipeline Tick Exn α) (Q : α → Heap → Prop) : Prop :=
  Does P m Q (fun _ _ => True) fun _ => True

theorem Does.yields {E : Exn → Heap → Prop} {C : Heap → Prop} {m : Program Pipeline Tick Exn α}
    (h : Does P m Q E C) : Yields P m Q :=
  h.conseq (fun _ => id) (fun _ _ => id) (fun _ _ _ => trivial) fun _ _ => trivial

theorem Does.and {E D : Exn → Heap → Prop} {C C' : Heap → Prop} {m : Program Pipeline Tick Exn α}
    (h : Does P m Q E C) (h' : Does H m K D C')
    : Does (fun h => P h ∧ H h) m (fun a h => Q a h ∧ K a h) (fun e h => E e h ∧ D e h)
        fun h => C h ∧ C' h :=
  Program.Triple.and h h'

theorem yields_stays {m : Program Pipeline Tick Exn α} (h : Stays P m) : Yields P m fun _ => P :=
  Does.yields h

theorem yields_env {m : Program Env Tick Exn β} {f : β → Program Pipeline Tick Exn α}
    (hf : ∀ b, Yields P (f b) Q) : Yields P (onEnv m >>= f) Q :=
  does_bind (yields_stays stays_onEnv) hf

theorem yields_any {m : Program Pipeline Tick Exn α} : Yields P m fun _ _ => True := by
  intro p ts _
  rcases m p ts with ⟨_ | _ | _, p', us⟩
  . trivial
  . trivial
  . trivial

theorem yields_raise {e : Exn} : Yields P (Program.raise e : Program Pipeline Tick Exn α) Q :=
  does_raise fun _ _ => trivial

theorem yields_deref {K : FfmpegProcess → Prop}
    : Yields (Transcoding s K) (deref s) fun _ => Transcoding s K := by
  apply Does.transcoding
  intro id p hfed hsettled hK
  apply (does_deref (by simp)).post
  exact fun _ _ hh => ⟨id, p, ⟨hfed, hsettled, hK⟩, hh.2⟩

theorem does_startPipeline_named {forceSoftware : Bool}
    : Does (fun h => Fetching h ∧ Named h) (startPipeline v codec mode forceSoftware)
        (fun initialMp4 h => Serving codec mode initialMp4 h ∧ NamedDestroyed h)
        (fun _ h => Between h ∧ Named h) fun _ => True := by
  apply does_bind (R := fun _ h => (Transcoding .ffmpeg fun p => p.New ∧ p.Runs codec mode) h ∧ Named h)
  . apply ((does_makeProcess_fetching selectPlan_useSoftware).and
      (lasting_named.makeProcess named_newProcess)).conseq
    . exact fun _ hh => hh
    . exact fun _ _ hh => hh
    . exact fun _ _ hh => ⟨.inl hh.1, hh.2⟩
    . exact fun _ _ => trivial
  intro _
  apply does_bind (R := fun _ h => Reading .ffmpeg codec mode [] h ∧ Named h)
  . apply (does_startPump_new.and lasting_named.startPump).conseq
    . exact fun _ hh => hh
    . exact fun _ _ hh => hh
    . exact fun _ _ hh => ⟨.inr hh.1, hh.2⟩
    . exact fun _ _ => trivial
  intro _
  have hdestroyed : Stays NamedDestroyed (readFirstMedia v []) :=
    stays_readUntilReady (fun _ hh => hh) fun _ _ _ hh => hh
  apply (does_readUntilReady_reading.and hdestroyed).conseq
  . exact fun _ hh => ⟨hh.1, hh.2.1⟩
  . exact fun _ _ hh => ⟨⟨hh.1.1.1, hh.1.2⟩, hh.2⟩
  . intro _ h hh
    refine ⟨.inr (hh.1.mono fun _ _ => trivial), hh.1.named hh.2 fun p hp hunnamed => ?_⟩
    have hready := hunnamed.mediaReady
    rw [hp.1.unready not_mediaReady_nil] at hready
    cases hready
  . exact fun _ _ => trivial

theorem yields_softwareFallback {error : BridgeError}
    : Yields (fun h => Between h ∧ Named h) (softwareFallback v codec mode error)
        fun _ => NamedDestroyed := by
  apply Does.pre (H := fun h =>
    (Fetching h ∧ Named h) ∨ ((Transcoding .ffmpeg fun _ => True) h ∧ Named h))
  . apply Does.or
    . apply does_peek
      intro h hh
      rw [hh.1.ffmpeg_eq]
      exact yields_raise
    . apply does_peek
      intro h hh
      obtain ⟨pid, hpid⟩ := Option.isSome_iff_exists.mp hh.1.ffmpeg_isSome
      rw [hpid]
      apply does_bind (yields_deref.and (stays_deref lasting_named.undefined)).yields
      intro process
      apply does_ite
      . exact fun _ => yields_raise
      . intro _
        apply yields_env
        intro _
        apply does_bind (does_stopAndReset.and lasting_named.stopAndReset).yields
        intro _
        exact does_startPipeline_named.yields.post fun _ _ hh => hh.2
  . intro h hh
    exact hh.1.imp (fun hfetching => ⟨hfetching, hh.2⟩) fun htranscoding => ⟨htranscoding, hh.2⟩

theorem yields_copyFallback
    : Yields (fun h => Between h ∧ Named h) (copyFallback v codec) fun _ => NamedDestroyed := by
  have hrest : Yields (fun h => Fetching h ∧ Named h)
      (do
        restartSession v
        start v
        let initialMp4 ← startPipeline v codec .H264Transcode true
        onEnv (logLine v)
        pure initialMp4) fun _ => NamedDestroyed := by
    apply does_bind (does_restartSession.and lasting_named.restartSession).yields
    intro _
    apply does_bind (does_start_fetching.and lasting_named.start).yields
    intro _
    apply does_bind does_startPipeline_named.yields
    intro initialMp4
    apply yields_env
    intro _
    exact does_pure fun _ hh => hh.2
  apply Does.pre (H := fun h =>
    (Fetching h ∧ Named h) ∨ ((Transcoding .ffmpeg fun _ => True) h ∧ Named h))
  . apply Does.or
    . apply does_peek
      intro h hh
      rw [hh.1.ffmpeg_eq]
      apply does_bind (R := fun _ h => Fetching h ∧ Named h)
      . exact does_pure fun _ hh => hh
      . exact fun _ => hrest
    . apply does_peek
      intro h hh
      rw [hh.1.ffmpeg_isSome]
      apply does_bind (does_stopFailedCopy.and lasting_named.stopFailedCopy).yields
      exact fun _ => hrest
  . intro h hh
    exact hh.1.imp (fun hfetching => ⟨hfetching, hh.2⟩) fun htranscoding => ⟨htranscoding, hh.2⟩

theorem yields_codecMismatch
    : Yields (fun h => (Transcoding .ffmpeg fun _ => True) h ∧ Named h) (codecMismatch v)
        fun _ => NamedDestroyed := by
  iterate 2
    apply yields_env
    intro _
  apply does_bind (does_stopAndReset.and lasting_named.stopAndReset).yields
  intro _
  apply does_rescue (D := fun _ h => Between h ∧ Named h)
  . apply does_startPipeline_named.conseq
    . exact fun _ hh => hh
    . exact fun _ _ hh => hh.2
    . exact fun _ _ hh => hh
    . exact fun _ _ => trivial
  intro exn
  cases exn with
  | bridge error => exact yields_softwareFallback
  | clientDisconnected => exact yields_raise
  | other => exact yields_raise

theorem yields_openOutput_copy
    : Yields (fun h => Fetching h ∧ Named h) (openOutput v codec .Copy []) fun opened h =>
        match opened with
        | none => Between h ∧ Named h
        | some initialMp4 => Serving codec .Copy initialMp4 h ∧ NamedDestroyed h := by
  apply does_peek
  intro h hh
  rw [hh.1.ffmpeg_eq]
  apply does_rescue (D := fun _ h => Between h ∧ Named h)
  . apply does_bind
    . apply does_startPipeline_named.conseq
      . exact fun _ hh => hh
      . exact fun _ _ hh => hh
      . exact fun _ _ hh => hh
      . exact fun _ _ => trivial
    . exact fun _ => does_pure fun _ hh => hh
  . intro exn
    cases exn with
    | bridge error =>
      apply does_ite
      . intro _
        apply yields_env
        intro _
        exact does_pure fun _ hh => hh
      . exact fun hmode => absurd rfl hmode
    | clientDisconnected => exact yields_raise
    | other => exact yields_raise

theorem yields_ensureSession
    : Yields (fun h => Fetching h ∧ Named h) (ensureSession v) fun _ h => Fetching h ∧ Named h := by
  have hready : Yields Fetching (ensureSession v) fun _ => Fetching := by
    apply does_peek
    intro h ⟨id, hh⟩
    rw [hh.session_eq]
    apply does_bind (R := fun _ => Fetching)
    . exact does_pure fun _ hh => hh
    intro _
    apply Does.exists
    intro id
    apply does_bind (does_derefSession rfl)
    intro session
    apply Does.pre (H := Fetching)
    . apply does_ite
      . exact fun _ => does_pure fun _ hh => hh
      . exact fun _ => does_start_fetching.yields
    . exact fun _ hh => ⟨id, hh.2⟩
  exact (hready.and lasting_named.ensureSession).yields

theorem yields_setupDetected_reported (hcopies : outputMode v .H264 = .Copy)
    : Yields (fun h => Fetching h ∧ Named h) (setupDetected v { codec := .H264 })
        fun _ => NamedDestroyed := by
  apply yields_env
  intro _
  apply does_bind (R := fun _ h => Fetching h ∧ Named h)
  . apply does_ite
    . exact fun _ => (stays_onEnv (P := fun h => Fetching h ∧ Named h)).yields
    . exact fun _ => does_pure fun _ hh => hh
  intro _
  apply does_bind (R := fun _ h => Fetching h ∧ Named h)
  . apply does_peek
    rintro h ⟨⟨id, hh⟩, -⟩
    rw [hh.probe_eq]
    exact does_pure fun _ hh => hh
  intro _
  apply does_bind (R := fun _ h => Fetching h ∧ Named h)
  . exact does_pure fun _ hh => hh
  intro _
  apply does_bind yields_ensureSession
  intro _
  rw [hcopies]
  apply does_bind yields_openOutput_copy
  intro opened
  cases opened with
  | none => exact does_bind yields_copyFallback fun _ => does_pure fun _ hh => hh
  | some initialMp4 =>
    apply does_ite
    . rintro ⟨-, hcodec⟩
      apply does_bind (yields_codecMismatch.pre _) fun _ => does_pure fun _ hh => hh
      rintro h ⟨⟨-, hreading⟩, hdestroyed⟩
      refine ⟨hreading.mono fun _ _ => trivial, hreading.named hdestroyed fun p hp hunnamed => ?_⟩
      have hunknown := hunnamed.codec
      rw [hp.1.1, hcodec] at hunknown
      cases hunknown
    . exact fun _ => does_pure fun _ hh => hh.2

theorem yields_setupDetected_mode {d : Detection}
    : Yields (fun _ => True) (setupDetected v d)
        fun o _ => o.mode = .Copy → outputMode v d.codec = .Copy := by
  iterate 5
    apply does_bind (R := fun _ _ => True) yields_any
    intro _
  apply does_bind (R := fun _ _ => True) yields_any
  intro opened
  cases opened with
  | none => exact does_bind (R := fun _ _ => True) yields_any fun _ => does_pure fun _ _ => nofun
  | some initialMp4 =>
    apply does_ite
    . exact fun _ => does_bind (R := fun _ _ => True) yields_any fun _ => does_pure fun _ _ => nofun
    . exact fun _ => does_pure fun _ _ => id

theorem yields_setupDetected_reused {d : Detection} (hnamed : detectVideoCodec d.initialMp4 ≠ .Unknown)
    : Yields (Reused v d) (setupDetected v d)
        fun o _ => o.mode = .Copy → detectVideoCodec o.initialMp4 ≠ .Unknown := by
  apply yields_env
  intro _
  apply does_bind (R := fun _ => Reused v d)
  . apply does_ite
    . exact fun _ => (stays_onEnv (P := Reused v d)).yields
    . exact fun _ => does_pure fun _ hh => hh
  intro _
  apply does_bind (R := fun _ => Reused v d)
  . apply does_peek
    rintro h ⟨-, id, p, -, hh⟩
    rw [hh.probe_eq]
    exact does_pure fun _ hh => hh
  intro _
  apply Does.given
  rintro ⟨hrestart, hmode⟩
  rw [hrestart, hmode]
  apply does_bind (R := fun _ => Reading .ffmpeg d.codec .Copy d.initialMp4)
  . exact does_pure fun _ hh => hh
  intro _
  apply does_bind (R := fun _ => Reading .ffmpeg d.codec .Copy d.initialMp4)
  . apply does_peek
    rintro h ⟨id, p, -, hh⟩
    rw [hh.session_eq]
    apply does_bind (R := fun _ => Reading .ffmpeg d.codec .Copy d.initialMp4)
    . exact does_pure fun _ hh => hh
    intro _
    apply Does.transcoding
    intro id p hfed hsettled hread
    apply does_bind (does_derefSession rfl)
    intro session
    apply Does.pre (H := Reading .ffmpeg d.codec .Copy d.initialMp4)
    . apply does_ite
      . exact fun _ => does_pure fun _ hh => hh
      . exact fun _ => does_start_transcoding.yields
    . exact fun _ hh => ⟨id, p, ⟨hfed, hsettled, hread⟩, hh.2⟩
  intro _
  apply does_bind (R := fun opened _ => ∀ initialMp4, opened = some initialMp4 →
    detectVideoCodec initialMp4 ≠ .Unknown)
  . apply does_peek
    intro h hh
    rw [hh.ffmpeg_isSome]
    apply does_rescue (D := fun _ _ => True)
    . apply does_bind does_readUntilReady_reading.yields
      intro result
      apply does_pure
      rintro h ⟨⟨-, rest, rfl⟩, -⟩ _ ⟨⟩
      exact detectVideoCodec_append hnamed
    . intro exn
      cases exn with
      | bridge error =>
        apply does_ite
        . exact fun _ => yields_raise
        . intro _
          apply yields_env
          intro _
          exact does_pure fun _ _ => nofun
      | clientDisconnected => exact yields_raise
      | other => exact yields_raise
  intro opened
  cases opened with
  | none => exact does_bind (R := fun _ _ => True) yields_any fun _ => does_pure fun _ _ => nofun
  | some initialMp4 =>
    apply does_ite
    . exact fun _ => does_bind (R := fun _ _ => True) yields_any fun _ => does_pure fun _ _ => nofun
    . exact fun _ => does_pure fun _ hh _ => hh initialMp4 rfl

def reportedCodec (v : Setting) : Program Pipeline Tick Exn DetectedVideoCodec := do
  openSession v
  let cached ← onEnv external
  if cached.codec ≠ .Unknown then
    pure cached.codec
  else do
    let session ← derefSession
    pure session.configuredVideoCodec

theorem heap_of_onEnv {m : Program Env Tick Exn α} {p p' : Pipeline} {ts us : List Tick} {value : α}
    (h : onEnv m p ts = (.ok value, p', us)) : p'.heap = p.heap := by
  have hends := stays_onEnv (m := m) (P := fun h => h = p.heap) p ts rfl
  rw [h] at hends
  exact hends

theorem Yields.of_ok {m : Program Pipeline Tick Exn α} (h : Yields P m Q) {p p' : Pipeline}
    {ts us : List Tick} {value : α} (hrun : m p ts = (.ok value, p', us)) (hp : P p.heap)
    : Q value p'.heap := by
  have hends := h p ts hp
  rw [hrun] at hends
  exact hends

theorem reported_of_detectCodec {p p' : Pipeline} {ts us : List Tick} {d : Detection}
    (h : detectCodec v p ts = (.ok d, p', us))
    : ∃ codec q vs, reportedCodec v p ts = (.ok codec, q, vs)
        ∧ ((codec ≠ .Unknown ∧ d = { codec } ∧ p'.heap = q.heap)
          ∨ (codec = .Unknown ∧ probeCodec v q vs = (.ok d, p', us))) := by
  obtain ⟨_, p₁, ts₁, hopen, h⟩ := Program.ok_of_bind h
  obtain ⟨cached, p₂, ts₂, hcached, h⟩ := Program.ok_of_bind h
  unfold reportedCodec
  rw [Program.bind_ok hopen, Program.bind_ok hcached]
  by_cases hcodec : cached.codec ≠ .Unknown
  . rw [if_pos hcodec] at h ⊢
    obtain ⟨_, p₃, ts₃, hlog, h⟩ := Program.ok_of_bind h
    cases h
    exact ⟨cached.codec, p₂, ts₂, rfl, .inl ⟨hcodec, rfl, heap_of_onEnv hlog⟩⟩
  . rw [if_neg hcodec] at h ⊢
    obtain ⟨session, p₃, ts₃, hsession, h⟩ := Program.ok_of_bind h
    rw [Program.bind_ok hsession]
    refine ⟨session.configuredVideoCodec, p₃, ts₃, rfl, ?_⟩
    by_cases hdevice : session.configuredVideoCodec ≠ .Unknown
    . rw [if_pos hdevice] at h
      obtain ⟨_, p₄, ts₄, hset, h⟩ := Program.ok_of_bind h
      obtain ⟨_, p₅, ts₅, hlog, h⟩ := Program.ok_of_bind h
      cases h
      exact .inl ⟨hdevice, rfl, (heap_of_onEnv hlog).trans (heap_of_onEnv hset)⟩
    . rw [if_neg hdevice] at h
      exact .inr ⟨not_not.mp hdevice, h⟩

theorem yields_reportedCodec
    : Yields (fun h => Idle h ∧ Named h) (reportedCodec v) fun _ h => Fetching h ∧ Named h := by
  apply does_bind (does_openSession.and lasting_named.openSession).yields
  intro _
  apply yields_env
  intro cached
  apply does_ite
  . exact fun _ => does_pure fun _ hh => hh
  . intro _
    apply does_bind (R := fun _ h => Fetching h ∧ Named h)
    . have hderef : Yields Fetching derefSession fun _ => Fetching := by
        apply Does.exists
        intro id
        exact (does_derefSession rfl).post fun _ _ hh => ⟨id, hh.2⟩
      exact (hderef.and (stays_derefSession lasting_named.undefined)).yields
    . exact fun _ => does_pure fun _ hh => hh

theorem named_of_setup {p p' : Pipeline} {ts us vs : List Tick} {q : Pipeline} {o : Output}
    (hidle : Idle p.heap ∧ Named p.heap) (h : setup v p ts = (.ok o, p', us))
    {codec : DetectedVideoCodec} (hreported : reportedCodec v p ts = (.ok codec, q, vs))
    (hcopy : o.mode = .Copy) : codec = .H264 ∨ detectVideoCodec o.initialMp4 ≠ .Unknown := by
  obtain ⟨d, p₁, ts₁, hdetected, h⟩ := Program.ok_of_bind h
  have hmode := yields_setupDetected_mode.of_ok h trivial hcopy
  obtain ⟨codec', q', vs', hreported', hcases⟩ := reported_of_detectCodec hdetected
  rw [hreported] at hreported'
  cases hreported'
  rcases hcases with ⟨hknown, rfl, -⟩ | ⟨rfl, hprobe⟩
  . left
    cases codec with
    | Unknown => exact absurd rfl hknown
    | H264 => rfl
    | H265 => simp [outputMode] at hmode
  . right
    have hfetching := (yields_reportedCodec.of_ok hreported hidle).1
    rcases does_probeCodec.yields.of_ok hprobe hfetching with ⟨htranscodes, -⟩ | ⟨hnamed, hreused⟩
    . exact absurd hmode htranscodes
    . exact (yields_setupDetected_reused hnamed).of_ok h hreused hcopy

theorem namedDestroyed_of_setup {p p' : Pipeline} {ts us vs : List Tick} {q : Pipeline} {o : Output}
    (hidle : Idle p.heap ∧ Named p.heap) (h : setup v p ts = (.ok o, p', us))
    (hreported : reportedCodec v p ts = (.ok .H264, q, vs)) (hallowed : v.h264CopyAllowed = true)
    : NamedDestroyed p'.heap := by
  obtain ⟨d, p₁, ts₁, hdetected, h⟩ := Program.ok_of_bind h
  obtain ⟨codec', q', vs', hreported', hcases⟩ := reported_of_detectCodec hdetected
  rw [hreported] at hreported'
  cases hreported'
  rcases hcases with ⟨-, rfl, hheap⟩ | ⟨hunknown, -⟩
  . have hfetching := yields_reportedCodec.of_ok hreported hidle
    rw [← hheap] at hfetching
    exact (yields_setupDetected_reported (by simp [outputMode, hallowed])).of_ok h hfetching
  . cases hunknown

end Pipeline

namespace World

open Heap (Idle Named)

variable {v : Setting} {heap : Heap} {o : Pipeline.Output}

/--
A request that has got a lease, as far as the first log line.
-/
def admission (v : Setting) : Program World Tick Exn Unit := do
  onEnv (checkVideoClient v)
  let reserved ← reserve
  if !reserved then
    Program.raise (.bridge sessionLimit)
  else
    onEnv (logLine v)

/--
The codec cache, or else the device, says that the stream is of this codec.
-/
def Reports (v : Setting) (ticks : List Tick) (codec : DetectedVideoCodec) : Prop :=
  ∃ w rest, (admission v >>= fun _ => onPipeline (Pipeline.reportedCodec v)) {} ticks
    = (.ok codec, w, rest)

theorem mute_advertised (J : Option (Heap × Pipeline.Output) → Prop) : Mute fun w => J w.advertised := by
  intro w w' _ _ hadvertised _ hw
  rw [hadvertised]
  exact hw

theorem keeps_advertised_onClient {J : Option (Heap × Pipeline.Output) → Prop} {α : Type}
    {m : Program Client Tick Exn α} : Program.Keeps (fun w : World => J w.advertised) (onClient m) :=
  Program.keeps_zoom fun _ _ hw => hw

theorem keeps_chunks {I : World → Prop} (initialMp4 : Bytes) (hmute : Mute I)
    (hclient : ∀ {m : Program Client Tick Exn Unit}, Program.Keeps I (onClient m))
    : Program.Keeps I (do
        onClient (Client.sendChunk v initialMp4)
        let reason ← transmit v
        finish v reason) := by
  apply Program.keeps_bind hclient
  intro _
  apply Program.keeps_bind
  . apply Program.keeps_iterate
    intro _
    apply Program.keeps_bind (keeps_env hmute)
    intro running
    apply Program.keeps_ite Program.keeps_pure
    apply Program.keeps_bind (keeps_pipeline hmute)
    intro data
    apply Program.keeps_ite
    . exact Program.keeps_bind (keeps_endOfOutput hmute) fun _ => Program.keeps_pure
    . exact Program.keeps_bind hclient fun _ => Program.keeps_pure
  intro reason
  apply Program.keeps_bind
  . exact Program.keeps_ite (keeps_endOfOutput hmute) Program.keeps_pure
  intro reason
  apply Program.keeps_bind
  . apply Program.keeps_bind (keeps_status hmute)
    intro _
    apply Program.keeps_bind (keeps_pipeline hmute)
    intro _
    exact keeps_env hmute
  exact fun _ => hclient

theorem keeps_advertised_rest {J : Option (Heap × Pipeline.Output) → Prop} (initialMp4 : Bytes)
    : Program.Keeps (fun w : World => J w.advertised) (do
        onClient (Client.sendVideoHeaders v initialMp4)
        Program.update fun w : World => { w with headers := some w.wire.length, responseStarted := true }
        onClient (Client.sendChunk v initialMp4)
        let reason ← transmit v
        finish v reason) := by
  apply Program.keeps_bind keeps_advertised_onClient
  intro _
  apply Program.keeps_bind
  . exact Program.keeps_update fun _ hw => hw
  intro _
  exact keeps_chunks initialMp4 (mute_advertised J) keeps_advertised_onClient

-- The headers are not sent with these variables, and there is no pipeline yet.
def Unsent (heap : Heap) (o : Pipeline.Output) (now : Heap) (w : World) : Prop :=
  w.heap = now ∧ w.advertised ≠ some (heap, o)

theorem unsent_onEnv {α : Type} {m : Program Env Tick Exn α} {now : Heap}
    : Program.Keeps (Unsent heap o now) (onEnv m) :=
  Program.keeps_zoom fun _ _ hw => hw

theorem advertised_of_deliver {w : World} {ts : List Tick} {output : Pipeline.Output}
    (hw : Unsent heap o w.heap w) (h : (deliver v output w ts).2.1.advertised = some (heap, o))
    : heap = w.heap ∧ o = output := by
  have hsent : ∀ {w' : World}, w'.advertised = some (heap, o) → ¬ Unsent heap o w.heap w' :=
    fun hadvertised hunsent => hunsent.2 hadvertised
  obtain ⟨_, w₁, ts₁, -, hw₁, heq₁⟩ := Program.reaches_of_bind unsent_onEnv hw (hsent h)
  rw [deliver, heq₁] at h
  obtain ⟨_, w₂, ts₂, -, hw₂, heq₂⟩ := Program.reaches_of_bind unsent_onEnv hw₁ (hsent h)
  rw [heq₂] at h
  have hrest := keeps_advertised_rest (v := v) output.initialMp4
    (J := fun a => a = some (w₂.heap, output)) { w₂ with advertised := some (w₂.heap, output) } ts₂ rfl
  have hends : (some (heap, o) : Option (Heap × Pipeline.Output)) = some (w₂.heap, output) :=
    h.symm.trans hrest.state
  cases hends
  exact ⟨hw₂.1, rfl⟩

theorem keeps_reserve {I : World → Prop} (henv : Program.Keeps I (onEnv external))
    (hlease : ∀ w, I w → I { w with lease := .held, env := { w.env with cancelled := false } })
    : Program.Keeps I reserve := by
  apply Program.keeps_bind henv
  intro answer
  apply Program.keeps_ite Program.keeps_pure
  apply Program.keeps_bind
  . exact Program.keeps_update hlease
  . exact fun _ => Program.keeps_pure

/--
A run that ends in a state which the admission cannot lead to has got its lease.
-/
theorem admission_of_handleVideo {I : World → Prop} {w : World} {ts : List Tick}
    (henv : ∀ {α : Type} {m : Program Env Tick Exn α}, Program.Keeps I (onEnv m))
    (hlease : ∀ w, I w → I { w with lease := .held, env := { w.env with cancelled := false } })
    (hw : I w) (h : ¬ I (handleVideo v w ts).2.1)
    : ∃ w₁ ts₁, I w₁ ∧ admission v w ts = onEnv (logLine v) w₁ ts₁
        ∧ handleVideo v w ts = Program.ensuring
          (do
            onEnv (logLine v)
            Program.ensuring (Program.rescue (serve v) (handleException v)) (cleanup v))
          (release v) w₁ ts₁ := by
  obtain ⟨_, w₁, ts₁, hcheck, hw₁, heq₁⟩ := Program.reaches_of_bind henv hw h
  change handleVideo v w ts = _ at heq₁
  rw [heq₁] at h ⊢
  obtain ⟨reserved, w₂, ts₂, hreserved, hw₂, heq₂⟩ :=
    Program.reaches_of_bind (keeps_reserve henv hlease) hw₁ h
  rw [heq₂] at h ⊢
  cases reserved with
  | false => exact absurd hw₂ h
  | true =>
    refine ⟨w₂, ts₂, hw₂, ?_, rfl⟩
    rw [admission, Program.bind_ok hcheck, Program.bind_ok hreserved]
    rfl

theorem setup_of_advertised {ticks : List Tick}
    (h : (run v ticks).2.advertised = some (heap, o))
    : ∃ w ts p us, admission v {} ticks = (.ok (), w, ts) ∧ w.heap = {}
        ∧ Pipeline.setup v { env := w.env, heap := w.heap } ts = (.ok o, p, us) ∧ p.heap = heap := by
  have hsent : ∀ {w' : World}, w'.advertised = some (heap, o) → ¬ Unsent heap o {} w' :=
    fun hadvertised hunsent => hunsent.2 hadvertised
  have hmute : Mute fun w => w.advertised ≠ some (heap, o) :=
    mute_advertised fun a => a ≠ some (heap, o)
  replace h : (handleVideo v {} ticks).2.1.advertised = some (heap, o) := h
  have hempty : Unsent heap o {} {} := by
    refine ⟨rfl, fun heq => ?_⟩
    cases heq
  obtain ⟨w₁, ts₁, hw₁, hadmission, heq₁⟩ :=
    admission_of_handleVideo unsent_onEnv (fun _ hw => hw) hempty (hsent h)
  rw [heq₁] at h
  replace h := not_not.mp fun hne => Program.of_ensuring (keeps_release hmute) hne h
  obtain ⟨_, w₂, ts₂, hlog, hw₂, heq₂⟩ := Program.reaches_of_bind unsent_onEnv hw₁ (hsent h)
  rw [heq₂] at h
  replace h := not_not.mp fun hne => Program.of_ensuring (keeps_cleanup hmute) hne h
  have hcatch : ∀ e, Program.Keeps (fun w => w.advertised ≠ some (heap, o)) (handleException v e) :=
    fun e => (triple_exception hmute).conseq (fun _ => id) (fun _ _ => False.elim) (fun _ _ => id)
      fun _ => id
  replace h := not_not.mp fun hne => Program.of_rescue hcatch hne h
  obtain ⟨o', w₃, ts₃, hsetup, hw₃, heq₃⟩ :=
    Program.reaches_of_bind (keeps_pipeline hmute) hw₂.2 (not_not.mpr h)
  rw [serve, heq₃] at h
  obtain ⟨rfl, rfl⟩ := advertised_of_deliver ⟨rfl, hw₃⟩ h
  obtain ⟨p, hrun, rfl⟩ := Program.ok_of_zoom hsetup
  exact ⟨w₂, ts₂, p, ts₃, hadmission.trans hlog, hw₂.1, hrun, rfl⟩

theorem reports_iff {ticks ts : List Tick} {w : World} (hadmission : admission v {} ticks = (.ok (), w, ts))
    {codec : DetectedVideoCodec}
    : Reports v ticks codec ↔ ∃ q rest,
        Pipeline.reportedCodec v { env := w.env, heap := w.heap } ts = (.ok codec, q, rest) := by
  unfold Reports
  rw [Program.bind_ok hadmission]
  constructor
  . rintro ⟨w', rest, h⟩
    obtain ⟨q, hq, -⟩ := Program.ok_of_zoom h
    exact ⟨q, rest, hq⟩
  . rintro ⟨q, rest, h⟩
    exact ⟨_, rest, Program.zoom_ok (p := pipelinePart) h⟩

/--
The delivering process encodes H.264, or it copies what is allowed to be copied and is H.264.
-/
def Advertises (v : Setting) (p : FfmpegProcess) : Prop :=
  p.outputMode = .H264Transcode ∨
    (p.outputMode = .Copy ∧ v.h264CopyAllowed = true ∧ detectVideoCodec p.output = .H264)

instance (v : Setting) (p : FfmpegProcess) : Decidable (Advertises v p) :=
  inferInstanceAs (Decidable (_ ∨ _))

/--
The cache or the device says H.264, such a stream may be copied, and the process that is to copy it puts
out a first fragment that names no codec.
-/
def Misleads (v : Setting) (ticks : List Tick) (heap : Heap) : Prop :=
  v.h264CopyAllowed = true ∧ Reports v ticks .H264 ∧ ∃ p ∈ heap.destroyed ++ heap.processes, p.Unnamed

/--
What the browser is told about the stream is true unless a stream that is said to be H.264 does not show
itself to be anything. A probe is never mistaken. The hardware encodes H.265 streams only.
-/
theorem advertised_codec (v : Setting) (ticks : List Tick) (heap : Heap) (o : Pipeline.Output)
    (hadvertised : (run v ticks).2.advertised = some (heap, o))
    : ∃ p, heap.processes = [p] ∧ heap.ffmpeg = some p.id ∧ p.output = o.initialMp4 ∧
        (p.hardwareEnabled = true → o.codec = .H265) ∧
        (Advertises v p ↔ ¬ Misleads v ticks heap) := by
  have hdelivers := (headed_run v ticks).delivers hadvertised
  obtain ⟨hmedia, id, p, ⟨_, _, ⟨houtput, _⟩, hruns⟩, hh⟩ := hdelivers.serving
  refine ⟨p, hh.processes, hh.ffmpeg_eq, houtput, fun hhardware => (hruns.hardware hhardware).1, ?_⟩
  obtain ⟨w, ts, p', us, hadmission, hempty, hsetup, rfl⟩ := setup_of_advertised hadvertised
  have hidle : Idle w.heap ∧ Named w.heap := by
    rw [hempty]
    exact ⟨fresh_empty.idle, nofun, nofun⟩
  constructor
  . rintro htrue ⟨hallowed, hreports, q, hq, hunnamed⟩
    obtain ⟨_, _, hreported⟩ := (reports_iff hadmission).mp hreports
    have hdestroyed := Pipeline.namedDestroyed_of_setup hidle hsetup hreported hallowed
    have hqp : q = p := by
      cases List.mem_append.mp hq with
      | inl hq => exact absurd hunnamed (hdestroyed q hq)
      | inr hq =>
        rw [hh.processes] at hq
        exact List.mem_singleton.mp hq
    rw [hqp] at hunnamed
    rcases htrue with htranscodes | ⟨-, -, hcodec⟩
    . rw [hunnamed.copies] at htranscodes
      cases htranscodes
    . rw [hunnamed.codec] at hcodec
      cases hcodec
  . intro hnot
    unfold Advertises
    cases hmode : p.outputMode with
    | H264Transcode => exact .inl rfl
    | Copy =>
      have hoMode : o.mode = .Copy := hruns.outputMode.symm.trans hmode
      have hcopy := hdelivers.copy hoMode
      rw [← houtput] at hcopy
      refine .inr ⟨rfl, hcopy.1, ?_⟩
      cases hcodec : detectVideoCodec p.output with
      | H264 => rfl
      | H265 => exact absurd hcodec hcopy.2
      | Unknown =>
        obtain ⟨d, _, _, hdetected, -⟩ := Program.ok_of_bind hsetup
        obtain ⟨codec, q, vs, hreported, -⟩ := Pipeline.reported_of_detectCodec hdetected
        rcases Pipeline.named_of_setup hidle hsetup hreported hoMode with rfl | hnamed
        . refine absurd ⟨hcopy.1, (reports_iff hadmission).mpr ⟨q, vs, hreported⟩, p, ?_, ?_⟩ hnot
          . rw [hh.processes]
            exact List.mem_append_right _ (List.mem_singleton.mpr rfl)
          . exact ⟨hmode, houtput ▸ hmedia, hcodec⟩
        . rw [← houtput] at hnamed
          exact absurd hcodec hnamed

theorem advertised_codec_liveView
    : ∃ heap o, (run liveView (streamEnd 50)).2.advertised = some (heap, o) ∧ ∃ p,
        heap.processes = [p] ∧ heap.ffmpeg = some p.id ∧ p.output = o.initialMp4 ∧
        (p.hardwareEnabled = true → o.codec = .H265) ∧
        (Advertises liveView p ↔ ¬ Misleads liveView (streamEnd 50) heap) := by
  have hsome : (run liveView (streamEnd 50)).2.advertised.isSome = true := by decide +kernel
  obtain ⟨⟨heap, o⟩, hadvertised⟩ := Option.isSome_iff_exists.mp hsome
  exact ⟨heap, o, hadvertised, advertised_codec liveView (streamEnd 50) heap o hadvertised⟩

/--
The process copies a stream whose first fragment names no codec.
-/
theorem advertised_codec_unknown
    : ((run liveView (streamEnd 50)).2.advertised.map fun a =>
          a.1.processes.map fun p => (p.outputMode, decide (Advertises liveView p)))
        = some [(.Copy, false)] := by
  decide +kernel

end World
end HikBridge
