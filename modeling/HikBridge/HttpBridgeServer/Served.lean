import HikBridge.HttpBridgeServer.Statuses

/-!
This module contains what the client of a video request of the C# bridge receives: the output of the FFmpeg
that delivers, from its first byte on, with headers that describe it.
-/

namespace HikBridge
namespace NetBridge

open Program

section Response

variable (v : StreamRequest) (enableAudio : Bool)

def newFfmpeg (mode : VideoOutputMode) : FfmpegProcess :=
  { audioRequested := enableAudio && v.speedIsOne, videoOutputMode := mode }

structure Inspected (initialMp4 : Bytes) (p : FfmpegChild) : Prop where
  first : initialMp4 <+: p.output
  ftyp : containsAscii initialMp4 "ftyp" = true
  moov : containsAscii initialMp4 "moov" = true
  codec : p.detectedVideoCodec = detectVideoCodec initialMp4
  mse : p.mseVideoCodec = (newFfmpeg v enableAudio p.videoOutputMode).videoCodec initialMp4
  audio : p.outputHasAudio
    = ((enableAudio && v.speedIsOne) && (containsAscii initialMp4 "soun" || p.audioReported))

structure Begins (mode : VideoOutputMode) (initialMp4 : Bytes) (p : FfmpegChild) : Prop
    extends Inspected v enableAudio initialMp4 p where
  mode : p.videoOutputMode = mode
  requested : p.audioRequested = (enableAudio && v.speedIsOne)
  output : p.output = initialMp4

-- Its arguments copy the video.
def FfmpegChild.Copies (p : FfmpegChild) : Prop := p.videoOutputMode = .Copy

/--
The response consists of the output of `p`, without a gap from its first byte on, and its headers are
those of `p`. It is copied only at the normal speed and if its first bytes are not of H.265.
-/
def Serves (p : FfmpegChild) (response : VideoResponse) : Prop :=
  ∃ initialMp4, Inspected v enableAudio initialMp4 p
    ∧ (p.Copies → v.speedIsOne = true ∧ detectVideoCodec initialMp4 ≠ .H265)
    ∧ response.headers = videoHeaders v p
    ∧ response.body <+: p.output ∧ (response.body = [] ∨ initialMp4 <+: response.body)

def Serving (s : VideoRun) : Prop :=
  ∀ response ∈ s.response, ∃ p, s.ffmpeg = some p ∧ Serves v enableAudio p response

/--
A request that fails with a `BridgeException` is answered with it, so nothing of the video has been
sent.
-/
def Failing (e : Thrown) (s : VideoRun) : Prop :=
  Serving v enableAudio s ∧ ∀ error, e = .bridge error → s.response = none

end Response

section Objects

variable {v : StreamRequest} {enableAudio : Bool} {mode : VideoOutputMode} {α : Type}

def Gives (P : VideoRun → Prop) (m : Video α) (Q : α → VideoRun → Prop) : Prop :=
  Triple P m Q (fun _ _ => True) fun _ => True

theorem gives_bind {β : Type} {P : VideoRun → Prop} {Q : α → VideoRun → Prop} {R : β → VideoRun → Prop}
    {m : Video β} {f : β → Video α} (hm : Gives P m R) (hf : ∀ b, Gives (R b) (f b) Q)
    : Gives P (m >>= f) Q :=
  triple_bind hm hf

theorem gives_of_keeps {P : VideoRun → Prop} {m : Video α} (h : ∀ I, Keeps I m)
    : Gives P m fun _ => P :=
  (h P).conseq (fun _ => id) (fun _ _ => id) (fun _ _ _ => trivial) fun _ _ => trivial

theorem gives_inspect {P : VideoRun → Prop} : Gives P inspect fun t s => s = t ∧ P s :=
  triple_inspect fun _ h => ⟨rfl, h⟩

theorem gives_deref {P : FfmpegChild → Prop} {get : VideoRun → Option FfmpegChild}
    : Gives (fun s => ∃ p, get s = some p ∧ P p) (deref get) fun p s => get s = some p ∧ P p := by
  apply gives_bind gives_inspect
  intro t
  cases hget : get t with
  | none => exact triple_raise fun _ _ => trivial
  | some p =>
    apply triple_pure
    rintro s ⟨rfl, q, hq, hP⟩
    rw [hget] at hq
    cases hq
    exact ⟨hget, hP⟩

variable (v enableAudio mode) in
structure Constructed (p : FfmpegChild) : Prop where
  fields : p.toFfmpegProcess = newFfmpeg v enableAudio mode
  unreported : p.audioReported = false

theorem gives_newFfmpegProcess {P : VideoRun → Prop} {get : VideoRun → Option FfmpegChild}
    {assign : FfmpegChild → VideoRun → VideoRun} (hassign : ∀ p s, get (assign p s) = some p)
    : Gives P (newFfmpegProcess v enableAudio mode assign)
        fun _ s => ∃ p, get s = some p ∧ Constructed v enableAudio mode p := by
  have hP : ∀ {β : Type} {m : Video β}, (∀ I, Keeps I m) → Gives (fun _ => True) m fun _ _ => True :=
    fun h => gives_of_keeps h
  apply Triple.pre (H := fun _ => True) _ fun _ _ => trivial
  apply gives_bind (hP fun _ => keeps_statement)
  intro file
  apply triple_ite _ fun _ => triple_raise fun _ _ => trivial
  intro _
  apply gives_bind (hP fun _ => keeps_statement)
  intro started
  apply triple_ite _ fun _ => triple_raise fun _ _ => trivial
  intro _
  apply gives_bind (R := fun _ _ => True) (triple_update fun _ _ => trivial)
  intro _
  apply gives_bind (hP fun _ => keeps_statement)
  intro _
  apply gives_bind (hP fun _ => keeps_log)
  exact fun _ => triple_update fun s _ => ⟨_, hassign _ _, rfl, rfl⟩

theorem readInitialMp4_contains (p : FfmpegProcess) (after : OutputEnd) {initialMp4 : Bytes}
    (reads : List Bytes) (memory : Bytes) (h : p.readInitialMp4 after memory reads = .ok initialMp4)
    : containsAscii initialMp4 "ftyp" = true ∧ containsAscii initialMp4 "moov" = true := by
  induction reads generalizing memory with
  | nil =>
    unfold FfmpegProcess.readInitialMp4 at h
    split at h
    . cases after <;> cases h
    . cases h
  | cons data reads ih =>
    unfold FfmpegProcess.readInitialMp4 at h
    split at h
    . dsimp only at h
      split at h
      . next hcontains =>
        cases h
        exact Bool.and_eq_true_iff.mp hcontains
      . exact ih _ h
    . cases h

theorem detectedVideoCodec_inspectInitialMp4 (p : FfmpegProcess) (initialMp4 : Bytes)
    : (p.inspectInitialMp4 initialMp4).detectedVideoCodec = detectVideoCodec initialMp4 :=
  congrArg Prod.fst (codecs_eq p initialMp4)

theorem mseVideoCodec_inspectInitialMp4 (p : FfmpegProcess) (initialMp4 : Bytes)
    : (p.inspectInitialMp4 initialMp4).mseVideoCodec = p.videoCodec initialMp4 := by
  have hdetected := detectedVideoCodec_inspectInitialMp4 p initialMp4
  unfold FfmpegProcess.inspectInitialMp4 FfmpegProcess.videoCodec at *
  grind

theorem outputHasAudio_inspectInitialMp4 (p : FfmpegProcess) (initialMp4 : Bytes)
    : (p.inspectInitialMp4 initialMp4).outputHasAudio
        = (p.outputHasAudio || (p.audioRequested && containsAscii initialMp4 "soun")) := by
  unfold FfmpegProcess.inspectInitialMp4
  grind

theorem videoOutputMode_inspectInitialMp4 (p : FfmpegProcess) (initialMp4 : Bytes)
    : (p.inspectInitialMp4 initialMp4).videoOutputMode = p.videoOutputMode
        ∧ (p.inspectInitialMp4 initialMp4).audioRequested = p.audioRequested := by
  unfold FfmpegProcess.inspectInitialMp4
  grind

theorem Constructed.received {p : FfmpegChild} (h : Constructed v enableAudio mode p) (a : VideoAnswer)
    : (p.received a).toFfmpegProcess
        = { newFfmpeg v enableAudio mode with
            errorText := a.errorText
            outputHasAudio := (enableAudio && v.speedIsOne) && a.audioLine }
      ∧ (p.received a).audioReported = a.audioLine := by
  simp [FfmpegChild.received, h.fields, h.unreported, newFfmpeg]

theorem inspected_of_readInitialMp4 {p : FfmpegChild} {a : VideoAnswer} {initialMp4 : Bytes}
    (hp : Constructed v enableAudio mode p)
    (hread : (p.received a).readInitialMp4 a.after [] a.reads = .ok initialMp4)
    : Begins v enableAudio mode initialMp4 ((p.received a).inspected initialMp4) := by
  obtain ⟨hftyp, hmoov⟩ := readInitialMp4_contains _ _ _ _ hread
  obtain ⟨hreceived, hreported⟩ := hp.received a
  have hmode : ((p.received a).inspected initialMp4).videoOutputMode = mode :=
    (videoOutputMode_inspectInitialMp4 _ _).1.trans (by rw [hreceived]; rfl)
  have haudio : ((p.received a).inspected initialMp4).outputHasAudio
      = ((p.received a).outputHasAudio
          || ((p.received a).audioRequested && containsAscii initialMp4 "soun")) :=
    outputHasAudio_inspectInitialMp4 _ _
  refine {
    first := List.prefix_rfl
    ftyp := hftyp
    moov := hmoov
    codec := detectedVideoCodec_inspectInitialMp4 _ _
    mse := (mseVideoCodec_inspectInitialMp4 _ _).trans (by rw [hmode, hreceived]; rfl)
    audio := ?_
    mode := hmode
    requested := (videoOutputMode_inspectInitialMp4 _ _).2.trans (by rw [hreceived]; rfl)
    output := rfl }
  show _ = ((enableAudio && v.speedIsOne)
    && (containsAscii initialMp4 "soun" || (p.received a).audioReported))
  rw [haudio, hreported, hreceived, Bool.and_or_distrib_left, Bool.or_comm]
  rfl

theorem gives_readInitial {p : FfmpegChild} {P : VideoRun → Prop} {get : VideoRun → Option FfmpegChild}
    {store : FfmpegChild → VideoRun → VideoRun} (hstore : ∀ p s, get (store p s) = some p)
    (hp : Constructed v enableAudio mode p)
    : Gives P (readInitial p store)
        fun initialMp4 s => ∃ p, get s = some p ∧ Begins v enableAudio mode initialMp4 p := by
  apply gives_bind (gives_of_keeps fun _ => keeps_statement)
  intro a
  cases hread : (p.received a).readInitialMp4 a.after [] a.reads with
  | error e =>
    simp only [hread]
    exact triple_raise fun _ _ => trivial
  | ok initialMp4 =>
    simp only [hread]
    apply gives_bind (R := fun _ s => ∃ p, get s = some p ∧ Begins v enableAudio mode initialMp4 p)
    . exact triple_update fun _ _ => ⟨_, hstore _ _, inspected_of_readInitialMp4 hp hread⟩
    . exact fun _ => triple_pure fun _ => id

theorem gives_startOutput {P : VideoRun → Prop}
    : Gives P (startOutput v enableAudio mode)
        fun initialMp4 s => ∃ p, s.ffmpeg = some p ∧ Begins v enableAudio mode initialMp4 p := by
  apply gives_bind (R := fun _ s =>
    ∃ p, s.ffmpeg = some p ∧ Constructed v enableAudio mode p)
  . exact gives_newFfmpegProcess fun _ _ => rfl
  intro _
  apply gives_bind (gives_of_keeps fun _ => keeps_statement)
  intro _
  apply gives_bind gives_deref
  intro p
  apply Triple.pre (H := fun s => Constructed v enableAudio mode p ∧ s.ffmpeg = some p) _
    fun _ h => ⟨h.2, h.1⟩
  exact Triple.given fun hp => gives_readInitial (fun _ _ => rfl) hp

variable (v enableAudio) in
def Probed (s : VideoRun) : Prop :=
  s.probe = none ∨ ∃ p initialMp4 codec,
    s.probe = some ⟨some p, initialMp4, codec⟩ ∧ Begins v enableAudio .Copy initialMp4 p

theorem gives_startCodecProbe {P : VideoRun → Prop}
    : Gives P (startCodecProbe v enableAudio) fun _ => Probed v enableAudio := by
  apply triple_rescue (D := fun _ _ => True)
  . apply gives_bind (R := fun _ s =>
      ∃ p, s.probing = some p ∧ Constructed v enableAudio .Copy p)
    . exact gives_newFfmpegProcess fun _ _ => rfl
    intro _
    apply gives_bind (gives_of_keeps fun _ => keeps_log)
    intro _
    have hstart : Gives
        (fun s => ∃ p, s.probing = some p ∧ Constructed v enableAudio .Copy p) sessionStart
        fun _ s => ∃ p, s.probing = some p ∧ Constructed v enableAudio .Copy p :=
      gives_bind (gives_of_keeps fun _ => keeps_bridgeStatement) fun _ => triple_update fun _ => id
    apply gives_bind hstart
    intro _
    apply gives_bind (gives_of_keeps fun _ => keeps_statement)
    intro _
    apply gives_bind (R := fun initialMp4 s =>
      ∃ p, s.probing = some p ∧ Begins v enableAudio .Copy initialMp4 p)
    . apply gives_bind gives_deref
      intro p
      apply Triple.pre
        (H := fun s => Constructed v enableAudio .Copy p ∧ s.probing = some p) _
        fun _ h => ⟨h.2, h.1⟩
      exact Triple.given fun hp => gives_readInitial (fun _ _ => rfl) hp
    intro initialMp4
    apply gives_bind (gives_of_keeps fun _ => keeps_log)
    intro _
    apply gives_bind gives_deref
    intro p
    apply gives_bind (R := fun _ => Probed v enableAudio)
    . exact triple_update fun _ h => .inr ⟨p, initialMp4, _, rfl, h.2⟩
    . exact fun _ => triple_pure fun _ => id
  . intro e
    apply triple_bind (R := fun _ _ => True)
    . have hleaves : LeavesBooks (unlessNull VideoRun.probing fun p => dispose p setProbing) :=
        leaves_unlessNull fun p => leaves_dispose books_setProbing
      exact hleaves fun _ => True
    . exact fun _ => triple_raise fun _ => id

theorem gives_detectCodec
    : Gives (Probed v enableAudio) (detectCodec v enableAudio) fun _ => Probed v enableAudio := by
  apply gives_bind (gives_of_keeps fun _ => keeps_statement)
  intro cached
  cases cached.codec with
  | some codec => exact gives_bind (gives_of_keeps fun _ => keeps_log) fun _ => triple_pure fun _ => id
  | none =>
    apply gives_bind gives_inspect
    intro t
    cases t.session with
    | none => exact triple_raise fun _ _ => trivial
    | some session =>
      apply triple_ite
      . intro _
        apply gives_bind gives_startCodecProbe
        exact fun _ => gives_bind (gives_of_keeps fun _ => keeps_statement) fun _ => triple_pure fun _ => id
      . intro _
        apply gives_bind (gives_of_keeps fun _ => keeps_statement)
        intro _
        exact gives_bind (gives_of_keeps fun _ => keeps_log) fun _ => triple_pure fun _ => And.right

theorem gives_firstOutput
    : Gives (Probed v enableAudio) (firstOutput v enableAudio mode)
        fun initialMp4 s => ∃ p, s.ffmpeg = some p ∧ Begins v enableAudio mode initialMp4 p := by
  apply gives_bind gives_inspect
  intro t
  have hnew : ∀ {P : VideoRun → Prop}, Gives P
      (do
        stopProbe
        log
        startSession
        startOutput v enableAudio mode)
      fun initialMp4 s => ∃ p, s.ffmpeg = some p ∧ Begins v enableAudio mode initialMp4 p := by
    intro P
    have hleaves : ∀ {m : Video Unit}, LeavesBooks m → Gives (fun _ => True) m fun _ _ => True :=
      fun h => h fun _ => True
    apply Triple.pre (H := fun _ => True) _ fun _ _ => trivial
    apply gives_bind (hleaves leaves_stopProbe)
    intro _
    apply gives_bind (hleaves leaves_log)
    intro _
    apply gives_bind (hleaves leaves_startSession)
    exact fun _ => gives_startOutput
  cases mode with
  | H264Transcode => exact hnew
  | Copy =>
    cases hprobe : t.probe with
    | none => exact hnew
    | some probe =>
      apply gives_bind (R := fun _ s => ∃ p, s.ffmpeg = some p
        ∧ Begins v enableAudio .Copy probe.initialMp4 p)
      . apply triple_update
        rintro s ⟨rfl, hnone | ⟨p, initialMp4, codec, hsome, hinspected⟩⟩
        . rw [hprobe] at hnone
          cases hnone
        . rw [hprobe] at hsome
          cases hsome
          exact ⟨p, rfl, hinspected⟩
      . intro _
        exact gives_bind (gives_of_keeps fun _ => keeps_log) fun _ => triple_pure fun _ => id

variable (v enableAudio) in
def Ready (copies : Prop) (initialMp4 : Bytes) (s : VideoRun) : Prop :=
  ∃ mode p, s.ffmpeg = some p ∧ Begins v enableAudio mode initialMp4 p
    ∧ (mode = .Copy → copies ∧ detectVideoCodec initialMp4 ≠ .H265)

theorem gives_correctOutput (initialMp4 : Bytes)
    : Gives (fun s => ∃ p, s.ffmpeg = some p ∧ Begins v enableAudio mode initialMp4 p)
        (correctOutput v enableAudio mode initialMp4) (Ready v enableAudio (mode = .Copy)) := by
  apply gives_bind gives_deref
  intro p
  apply triple_ite
  . intro _
    have hleaves : ∀ {m : Video Unit}, LeavesBooks m → Gives (fun _ => True) m fun _ _ => True :=
      fun h => h fun _ => True
    apply Triple.pre (H := fun _ => True) _ fun _ _ => trivial
    apply gives_bind (hleaves leaves_log)
    intro _
    apply gives_bind (gives_of_keeps fun _ => keeps_statement)
    intro _
    apply gives_bind (hleaves (leaves_stopProcess books_setFfmpeg))
    intro _
    apply gives_bind (R := fun _ _ => True) (leaves_deref fun _ => True)
    intro q
    apply gives_bind (hleaves (leaves_dispose books_setFfmpeg))
    intro _
    apply gives_startOutput.conseq (fun _ => id) _ (fun _ _ => id) fun _ => id
    rintro initialMp4 s ⟨p, hp, hinspected⟩
    exact ⟨.H264Transcode, p, hp, hinspected, nofun⟩
  . intro hkeep
    apply triple_pure
    rintro s ⟨hp, hinspected⟩
    refine ⟨mode, p, hp, hinspected, fun hmode => ⟨hmode, ?_⟩⟩
    rw [← hinspected.codec]
    exact fun hcodec => hkeep ⟨hmode, hcodec⟩

theorem serving_of_none {s : VideoRun} (h : s.response = none) : Serving v enableAudio s := by
  intro response hresponse
  rw [h] at hresponse
  cases hresponse

theorem triple_unanswered {P : VideoRun → Prop} {Q : α → VideoRun → Prop} {m : Video α}
    (hleaves : LeavesBooks m) (h : Gives P m Q)
    : Triple (fun s => s.response = none ∧ P s) m (fun a s => s.response = none ∧ Q a s)
        (Failing v enableAudio) (Serving v enableAudio) :=
  ((hleaves fun b => b.response = none).and h).conseq (fun _ => id) (fun _ _ => id)
    (fun _ _ h => ⟨serving_of_none h.1, fun _ _ => h.1⟩) fun _ h => serving_of_none h.1

theorem triple_statement {P : VideoRun → Prop} (hserving : ∀ s, P s → Serving v enableAudio s)
    : Triple P statement (fun _ => P) (Failing v enableAudio) (Serving v enableAudio) := by
  apply triple_bind (R := fun _ => P) (triple_ask hserving fun _ _ => id)
  intro a
  cases hthrown : a.thrown with
  | none => exact triple_pure fun _ => id
  | some e =>
    apply triple_raise
    intro s h
    exact ⟨hserving s h, fun error he => absurd he (fromFramework_ne_bridge e error)⟩

variable (v enableAudio) in
def Sends (initialMp4 data : Bytes) (s : VideoRun) : Prop :=
  ∃ p response, s.ffmpeg = some p ∧ s.response = some response ∧ Inspected v enableAudio initialMp4 p
    ∧ (p.Copies → v.speedIsOne = true ∧ detectVideoCodec initialMp4 ≠ .H265)
    ∧ response.headers = videoHeaders v p
    ∧ p.output = response.body ++ data ∧ (response.body = [] ∨ initialMp4 <+: response.body)

theorem Sends.serving {initialMp4 data : Bytes} {s : VideoRun} (h : Sends v enableAudio initialMp4 data s)
    : Serving v enableAudio s := by
  obtain ⟨p, response, hp, hresponse, hinspected, hcopies, hheaders, houtput, hbody⟩ := h
  intro other hother
  rw [hresponse] at hother
  cases hother
  refine ⟨p, hp, initialMp4, hinspected, hcopies, hheaders, ?_, hbody⟩
  rw [houtput]
  exact List.prefix_append _ _

theorem triple_write {initialMp4 data : Bytes}
    : Triple (Sends v enableAudio initialMp4 data) (write data)
        (fun _ => Sends v enableAudio initialMp4 []) (Failing v enableAudio) (Serving v enableAudio) := by
  apply triple_bind (triple_statement fun s h => h.serving)
  intro _
  apply triple_bind (R := fun _ => Sends v enableAudio initialMp4 [])
  . apply triple_update
    rintro s ⟨p, response, hp, hresponse, hinspected, hcopies, hheaders, houtput, -⟩
    refine ⟨p, { response with body := response.body ++ data }, hp, ?_, hinspected, hcopies, hheaders,
      ?_, ?_⟩
    . exact congrArg (Option.map fun response => { response with body := response.body ++ data }) hresponse
    . exact houtput.trans (List.append_nil _).symm
    . rw [← houtput]
      exact .inr hinspected.first
  . intro _
    apply triple_bind (triple_statement fun s h => h.serving)
    exact fun _ => triple_pure fun _ => id

theorem Sends.delivered {initialMp4 : Bytes} {s : VideoRun} (h : Sends v enableAudio initialMp4 [] s)
    (data : Bytes) : Sends v enableAudio initialMp4 data (delivered data s) := by
  obtain ⟨p, response, hp, hresponse, hinspected, hcopies, hheaders, houtput, hbody⟩ := h
  refine ⟨{ p with output := p.output ++ data }, response, ?_, hresponse, ?_, hcopies, hheaders, ?_, hbody⟩
  . exact congrArg (Option.map _) hp
  . exact { hinspected with first := hinspected.first.trans (List.prefix_append _ _) }
  . show p.output ++ data = _
    rw [houtput, List.append_nil]

theorem triple_transmitRound (initialMp4 : Bytes) (round : Unit)
    : Triple (Sends v enableAudio initialMp4 []) (transmitRound round)
        (fun _ => Sends v enableAudio initialMp4 []) (Failing v enableAudio) (Serving v enableAudio) := by
  apply triple_bind (triple_ask (fun s h => h.serving) fun _ _ => id)
  intro a
  apply triple_ite
  . exact fun _ => triple_pure fun _ => id
  . intro _
    apply triple_bind (triple_statement fun s h => h.serving)
    intro read
    apply triple_ite
    . intro _
      apply triple_bind (R := fun _ => Sends v enableAudio initialMp4 []) (triple_inspect fun _ => id)
      intro t
      apply triple_bind (R := fun _ => Sends v enableAudio initialMp4 [])
      . exact triple_update fun _ => id
      . exact fun _ => triple_pure fun _ => id
    . intro _
      apply triple_bind (R := fun _ => Sends v enableAudio initialMp4 read.data)
      . exact triple_update fun _ h => h.delivered read.data
      . exact fun _ => triple_bind triple_write fun _ => triple_pure fun _ => id

theorem Inspected.received {initialMp4 : Bytes} {p : FfmpegChild}
    (h : Inspected v enableAudio initialMp4 p) (hrequested : p.audioRequested = (enableAudio && v.speedIsOne))
    (a : VideoAnswer) : Inspected v enableAudio initialMp4 (p.received a) := by
  refine { h with audio := ?_ }
  show (p.outputHasAudio || (p.audioRequested && a.audioLine)) = _
  rw [h.audio, hrequested, ← Bool.and_or_distrib_left, Bool.or_assoc]
  rfl

theorem triple_transmit {copies : Prop} (hcopies : copies → v.speedIsOne = true) (initialMp4 : Bytes)
    : Triple (fun s => s.response = none ∧ Ready v enableAudio copies initialMp4 s)
        (transmit v initialMp4) (fun _ => Serving v enableAudio) (Failing v enableAudio)
        (Serving v enableAudio) := by
  apply triple_bind (triple_unanswered leaves_log (gives_of_keeps fun _ => keeps_log))
  intro _
  apply triple_bind (R := fun _ s => s.response = none ∧ Ready v enableAudio copies initialMp4 s)
  . exact triple_update fun _ => id
  intro _
  apply triple_bind (R := fun p s => s.response = none ∧ s.ffmpeg = some p ∧ ∃ mode,
    Begins v enableAudio mode initialMp4 p
      ∧ (mode = .Copy → copies ∧ detectVideoCodec initialMp4 ≠ .H265))
  . apply triple_unanswered leaves_deref
    apply gives_deref.pre
    rintro s ⟨mode, p, hp, hready⟩
    exact ⟨p, hp, mode, hready⟩
  intro p
  apply triple_bind (triple_statement fun _ h => serving_of_none h.1)
  intro a
  apply triple_bind (R := fun _ s => s.ffmpeg = some (p.received a) ∧ ∃ mode,
    Begins v enableAudio mode initialMp4 p
      ∧ (mode = .Copy → copies ∧ detectVideoCodec initialMp4 ≠ .H265))
  . exact triple_update fun _ h => ⟨rfl, h.2.2⟩
  intro _
  apply triple_bind (R := fun _ => Sends v enableAudio initialMp4 initialMp4)
  . apply triple_update
    rintro s ⟨hp, mode, hbegins, hmode⟩
    refine ⟨p.received a, _, hp, rfl, hbegins.received hbegins.requested a, ?_, rfl, hbegins.output, .inl rfl⟩
    intro hcopy
    have hready := hmode (hbegins.mode.symm.trans hcopy)
    exact ⟨hcopies hready.1, hready.2⟩
  intro _
  apply triple_bind triple_write
  intro _
  have hserving : ∀ s, Sends v enableAudio initialMp4 [] s → Serving v enableAudio s :=
    fun _ h => h.serving
  apply Triple.conseq
    (triple_iterate (I := fun _ => Sends v enableAudio initialMp4 []) (fun _ => hserving) _)
    (fun _ => id) (fun _ => hserving) (fun _ _ => id) fun _ => id
  intro round
  apply (triple_transmitRound initialMp4 round).conseq (fun _ => id) _ (fun _ _ => id) fun _ => id
  intro r s h
  cases r <;> exact h

theorem triple_body
    : Triple (fun s => s.response = none ∧ Probed v enableAudio s) (body v enableAudio)
        (fun _ => Serving v enableAudio) (Failing v enableAudio) (Serving v enableAudio) := by
  apply triple_bind (triple_unanswered leaves_statement (gives_of_keeps fun _ => keeps_statement))
  intro _
  apply triple_bind (R := fun _ s => s.response = none ∧ Probed v enableAudio s)
  . exact triple_update fun _ => id
  intro _
  have hprepare : Gives (Probed v enableAudio) prepare fun _ => Probed v enableAudio :=
    gives_bind (gives_of_keeps fun _ => keeps_bridgeStatement) fun _ => triple_update fun _ => id
  apply triple_bind (triple_unanswered leaves_prepare hprepare)
  intro _
  apply triple_bind (triple_unanswered leaves_detectCodec gives_detectCodec)
  intro codec
  apply triple_bind (triple_unanswered leaves_log (gives_of_keeps fun _ => keeps_log))
  intro _
  apply triple_bind (triple_unanswered leaves_firstOutput gives_firstOutput)
  intro initialMp4
  apply triple_bind (triple_unanswered (leaves_correctOutput initialMp4) (gives_correctOutput initialMp4))
  apply triple_transmit
  intro hmode
  by_contra hspeed
  rw [if_neg fun h => hspeed h.1] at hmode
  cases hmode

theorem triple_catches (e : Thrown)
    : Triple (Failing v enableAudio e) (catches e) (fun _ => Serving v enableAudio)
        (Failing v enableAudio) (Serving v enableAudio) := by
  apply triple_ite
  . intro _
    apply triple_bind (R := fun _ => Serving v enableAudio)
    . exact triple_update fun _ h => h.1
    . intro _
      exact triple_bind (triple_statement fun _ => id) fun _ => triple_pure fun _ => id
  . intro _
    cases e with
    | bridge error =>
      apply triple_bind (R := fun _ => Failing v enableAudio (.bridge error))
      . exact triple_update fun _ => id
      . exact fun _ => triple_raise fun _ => id
    | httpListener | io | ioBecause | objectDisposed | other => exact triple_raise fun _ => id

theorem Serves.disposed {p : FfmpegChild} {response : VideoResponse} (h : Serves v enableAudio p response)
    : Serves v enableAudio { p with disposed := true } response := by
  obtain ⟨initialMp4, hinspected, hserves⟩ := h
  exact ⟨initialMp4, { hinspected with }, hserves⟩

theorem Serves.stopped {p : FfmpegChild} {response : VideoResponse} (h : Serves v enableAudio p response)
    (immediate : Bool) (a : VideoAnswer) : Serves v enableAudio (p.stopped immediate a) response := by
  obtain ⟨initialMp4, hinspected, hserves⟩ := h
  exact ⟨initialMp4, { hinspected with }, hserves⟩

theorem serving_setFfmpeg {p q : FfmpegChild} {s : VideoRun} (hp : s.ffmpeg = some p)
    (h : Serving v enableAudio s)
    (hq : ∀ response, Serves v enableAudio p response → Serves v enableAudio q response)
    : Serving v enableAudio (setFfmpeg q s) := by
  intro response hresponse
  obtain ⟨r, hr, hserves⟩ := h response hresponse
  rw [hp] at hr
  cases hr
  exact ⟨q, rfl, hq response hserves⟩

theorem triple_serving_stopProcess {p : FfmpegChild} {immediate : Bool}
    : Triple (fun s => s.ffmpeg = some p ∧ Serving v enableAudio s) (stopProcess p immediate setFfmpeg)
        (fun _ => Serving v enableAudio) (fun _ => Serving v enableAudio) (Serving v enableAudio) := by
  apply triple_ite
  . exact fun _ => triple_pure fun _ => And.right
  . intro _
    apply triple_bind (R := fun _ s => s.ffmpeg = some p ∧ Serving v enableAudio s)
      (triple_ask (fun _ => And.right) fun _ _ => id)
    intro a
    apply triple_bind (R := fun _ => Serving v enableAudio)
    . exact triple_update fun s h => serving_setFfmpeg h.1 h.2 fun _ hserves => hserves.stopped immediate a
    . exact fun _ => keeps_log

theorem triple_serving_dispose {p : FfmpegChild}
    : Triple (fun s => s.ffmpeg = some p ∧ Serving v enableAudio s) (dispose p setFfmpeg)
        (fun _ => Serving v enableAudio) (fun _ => Serving v enableAudio) (Serving v enableAudio) := by
  apply triple_ite
  . exact fun _ => triple_pure fun _ => And.right
  . intro _
    apply triple_bind
      (R := fun _ s => s.ffmpeg = some { p with disposed := true } ∧ Serving v enableAudio s)
    . exact triple_update fun s h => ⟨rfl, serving_setFfmpeg h.1 h.2 fun _ => Serves.disposed⟩
    . exact fun _ => triple_serving_stopProcess

theorem keeps_serving_dispose
    : Keeps (Serving v enableAudio) (unlessNull VideoRun.ffmpeg fun p => dispose p setFfmpeg) := by
  apply triple_bind (R := fun t s => s = t ∧ Serving v enableAudio s)
  . exact triple_inspect fun _ h => ⟨rfl, h⟩
  intro t
  cases hffmpeg : t.ffmpeg with
  | some p =>
    apply triple_serving_dispose.pre
    rintro s ⟨rfl, h⟩
    exact ⟨hffmpeg, h⟩
  | none => exact triple_pure fun _ => And.right

theorem keeps_serving_setProbe (p : FfmpegChild)
    : Keeps (Serving v enableAudio) (update (setProbe p) : Video Unit) := by
  apply keeps_update
  exact fun _ h => h

theorem keeps_serving_disposeProbe
    : Keeps (Serving v enableAudio) (unlessNull VideoRun.probeFfmpeg fun p => dispose p setProbe) := by
  apply keeps_bind keeps_inspect
  intro t
  cases VideoRun.probeFfmpeg t with
  | none => exact keeps_pure
  | some p =>
    apply keeps_ite keeps_pure
    apply keeps_bind (keeps_serving_setProbe _)
    intro _
    apply keeps_ite keeps_pure
    apply keeps_bind keeps_ask
    intro a
    exact keeps_bind (keeps_serving_setProbe _) fun _ => keeps_log

theorem keeps_serving_finish : Keeps (Serving v enableAudio) finish := by
  apply keeps_bind keeps_ask
  intro a
  apply keeps_bind
  . apply keeps_update
    intro s h
    split <;> exact h
  intro _
  apply keeps_bind
  . exact keeps_update fun _ => id
  intro _
  apply keeps_bind keeps_log
  intro _
  apply keeps_bind keeps_serving_disposeProbe
  intro _
  apply keeps_bind keeps_serving_dispose
  intro _
  apply keeps_bind
  . exact keeps_update fun _ => id
  . exact fun _ => keeps_log

theorem leaves_finish (J : Option VideoResponse → Prop) : Keeps (fun s => J s.response) finish := by
  apply keeps_bind keeps_ask
  intro a
  apply keeps_bind
  . apply keeps_update
    intro s h
    split <;> exact h
  intro _
  apply keeps_bind
  . exact keeps_update fun _ => id
  intro _
  apply keeps_bind keeps_log
  intro _
  apply keeps_bind ((leaves_unlessNull fun p => leaves_dispose books_setProbe) fun b => J b.response)
  intro _
  apply keeps_bind ((leaves_unlessNull fun p => leaves_dispose books_setFfmpeg) fun b => J b.response)
  intro _
  apply keeps_bind
  . exact keeps_update fun _ => id
  . exact fun _ => keeps_log

theorem triple_serving_cleanup (J : Option VideoResponse → Prop)
    : Triple (fun s => Serving v enableAudio s ∧ J s.response)
        (rescue finish fun e => do
          update fun s => { s with cleanupThrew := true }
          raise e)
        (fun _ s => Serving v enableAudio s ∧ J s.response) (Failing v enableAudio)
        (Serving v enableAudio) := by
  apply triple_rescue (D := fun e s => Serving v enableAudio s ∧ ∀ error, e ≠ .bridge error)
  . exact ((keeps_serving_finish.and (leaves_finish J)).and throwsOwn_finish).conseq
      (fun _ h => ⟨h, trivial⟩) (fun _ _ => And.left) (fun _ _ h => ⟨h.1.1, h.2⟩) fun _ h => h.1.1
  . intro e
    apply triple_bind (R := fun _ => Failing v enableAudio e)
    . exact triple_update fun s h => ⟨h.1, fun error he => absurd he (h.2 error)⟩
    . exact fun _ => triple_raise fun _ => id

end Objects

end NetBridge
end HikBridge
