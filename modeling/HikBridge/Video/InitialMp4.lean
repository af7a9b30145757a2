import HikBridge.Video.Detection
import HikBridge.Video.Runs

/-!
This module contains `ReadInitialMp4` and `InspectInitialMp4` of the C# bridge, and shows for which
streams the detection of the codec does not depend on how the pipe of FFmpeg cuts them.
-/

namespace HikBridge
namespace NetBridge

-- The parts of a `FfmpegProcess` that decide about the codecs.
structure FfmpegProcess where
  audioRequested : Bool
  videoOutputMode : VideoOutputMode
  outputHasAudio : Bool := false
  mseVideoCodec : Bytes := Bytes.lit "avc1.640029"
  detectedVideoCodec : DetectedVideoCodec := .Unknown
  errorText : List Char := []

-- What follows the bytes that arrive before the deadline.
inductive OutputEnd where
  | closed
  | silent

def findAscii (data target : Bytes) : Option Nat :=
  match data with
  | [] => none
  | byte :: rest =>
    if target.isPrefixOf (byte :: rest) then some 0 else (findAscii rest target).map (· + 1)

def containsAscii (data : Bytes) (text : String) : Bool := (findAscii data (Bytes.lit text)).isSome

def readAvcCodec (data : Bytes) : Option Bytes :=
  match findAscii data (Bytes.lit "avcC") with
  | none => none
  | some position =>
    match data.drop (position + 5) with
    | profile :: compatibility :: level :: _ =>
      some (Bytes.lit "avc1." ++ Client.hexByte profile ++ Client.hexByte compatibility
        ++ Client.hexByte level)
    | _ => none

def trim (text : List Char) : List Char :=
  ((text.dropWhile Char.isWhitespace).reverse.dropWhile Char.isWhitespace).reverse

def ffmpegNoMp4 (errorText : List Char) : BridgeError :=
  let details := errorText.drop (errorText.length - 600)
  ⟨502, "FFMPEG_NO_MP4", "FFmpeg did not produce a valid MP4 header"
    ++ if details = [] then "" else ": " ++ String.ofList (trim details)⟩

def ffmpegOutputTimeout : BridgeError :=
  ⟨504, "FFMPEG_OUTPUT_TIMEOUT", "waiting for fragmented MP4 timed out"⟩

namespace FfmpegProcess

variable (p : FfmpegProcess) (after : OutputEnd)

def mseCodecs : Bytes :=
  p.mseVideoCodec ++ if p.outputHasAudio then Bytes.lit ",mp4a.40.2" else []

-- The loop of `ReadInitialMp4`, where the list holds what the reads return.
def readInitialMp4 (memory : Bytes) (reads : List Bytes) : Except BridgeError Bytes :=
  if memory.length < 4 * 1024 * 1024 then
    match reads with
    | [] =>
      match after with
      | .closed => .error (ffmpegNoMp4 p.errorText)
      | .silent => .error ffmpegOutputTimeout
    | data :: reads =>
      let memory := memory ++ data
      if containsAscii memory "ftyp" && containsAscii memory "moov" then
        .ok memory
      else
        readInitialMp4 memory reads
  else
    .error (ffmpegNoMp4 p.errorText)

def inspectInitialMp4 (initialMp4 : Bytes) : FfmpegProcess :=
  let p := if p.audioRequested && containsAscii initialMp4 "soun" then
      { p with outputHasAudio := true }
    else
      p
  let p :=
    if containsAscii initialMp4 "hvcC" then { p with detectedVideoCodec := .H265 }
    else if containsAscii initialMp4 "avcC" then { p with detectedVideoCodec := .H264 }
    else { p with detectedVideoCodec := .Unknown }
  if p.videoOutputMode = .Copy ∧ p.detectedVideoCodec = .H264 then
    { p with mseVideoCodec := (readAvcCodec initialMp4).getD p.mseVideoCodec }
  else
    p

def codecs (initialMp4 : Bytes) : DetectedVideoCodec × Bytes :=
  ((p.inspectInitialMp4 initialMp4).detectedVideoCodec, (p.inspectInitialMp4 initialMp4).mseCodecs)

-- `ReadInitialMp4` followed by `InspectInitialMp4`, where an exception yields no codec.
def inspectedCodecs (reads : List Bytes) : Option (DetectedVideoCodec × Bytes) :=
  match p.readInitialMp4 after [] reads with
  | .ok initialMp4 => some (p.codecs initialMp4)
  | .error _ => none

end FfmpegProcess

section

variable {xs ys : Bytes}

theorem findAscii_isSome {target : Bytes} (htarget : target ≠ [])
    : (findAscii xs target).isSome = true ↔ target <:+: xs := by
  induction xs with
  | nil => simp [findAscii, htarget]
  | cons x xs ih =>
    rw [List.infix_cons_iff, ← ih, findAscii]
    split
    . next h => simp [List.isPrefixOf_iff_prefix.mp h]
    . next h =>
      rw [List.isPrefixOf_iff_prefix] at h
      simp [h]

theorem containsAscii_eq {text : String} (htext : Bytes.lit text ≠ [])
    : containsAscii xs text = containsAtom xs text := by
  rw [Bool.eq_iff_iff, containsAtom_iff htext]
  exact findAscii_isSome htext

-- The first occurrence is the same with more behind it.
theorem findAscii_append {target : Bytes} (htarget : target ≠ []) {position : Nat}
    (h : findAscii xs target = some position) : findAscii (xs ++ ys) target = some position := by
  induction xs generalizing position with
  | nil => contradiction
  | cons x xs ih =>
    rw [findAscii] at h
    rw [List.cons_append, findAscii]
    split at h
    . next hfound =>
      rw [List.isPrefixOf_iff_prefix] at hfound
      have hfound' : target <+: x :: (xs ++ ys) := hfound.trans (List.prefix_append _ _)
      rw [if_pos (List.isPrefixOf_iff_prefix.mpr hfound'), h]
    . next hnot =>
      obtain ⟨q, hq, hposition⟩ := Option.map_eq_some_iff.mp h
      rw [ih hq, if_neg, Option.map_some, hposition]
      intro hfound
      apply hnot
      rw [List.isPrefixOf_iff_prefix] at hfound ⊢
      have hinfix : target <:+: xs := (findAscii_isSome htarget).mp (by simp [hq])
      apply List.prefix_of_prefix_length_le hfound (List.prefix_append (x :: xs) ys)
      have := hinfix.length_le
      simp
      omega

theorem readAvcCodec_append {codec : Bytes} (h : readAvcCodec xs = some codec)
    : readAvcCodec (xs ++ ys) = some codec := by
  unfold readAvcCodec at h ⊢
  split at h
  . contradiction
  . next position hposition =>
    rw [findAscii_append (by decide) hposition]
    simp only
    split at h
    . next profile compatibility level rest hdrop =>
      have hlength := congrArg List.length hdrop
      simp at hlength
      rw [List.drop_append_of_le_length (by omega), hdrop]
      exact h
    . contradiction

theorem length_hexByte (byte : UInt8) : (Client.hexByte byte).length = 2 := by
  have hbyte := byte.toNat_lt
  unfold Client.hexByte
  split
  . next h =>
    rw [Numeral.numeral_of_lt (by simpa [UInt8.lt_iff_toNat_lt] using h)]
    rfl
  . next h =>
    have hle : 16 ≤ byte.toNat := by simpa [UInt8.lt_iff_toNat_lt] using h
    rw [Numeral.numeral_of_le (by omega) hle, Numeral.numeral_of_lt (by omega)]
    rfl

theorem length_readAvcCodec {codec : Bytes} (h : readAvcCodec xs = some codec) : codec.length = 11 := by
  unfold readAvcCodec at h
  split at h
  . contradiction
  . split at h
    . cases h
      simp [length_hexByte]
      rfl
    . contradiction

def FfmpegProcess.videoCodec (p : FfmpegProcess) (initialMp4 : Bytes) : Bytes :=
  if p.videoOutputMode = .Copy ∧ detectVideoCodec initialMp4 = .H264 then
    (readAvcCodec initialMp4).getD p.mseVideoCodec
  else
    p.mseVideoCodec

def FfmpegProcess.hasAudio (p : FfmpegProcess) (initialMp4 : Bytes) : Bool :=
  p.outputHasAudio || (p.audioRequested && containsAtom initialMp4 "soun")

theorem codecs_eq (p : FfmpegProcess) (initialMp4 : Bytes)
    : p.codecs initialMp4 = (detectVideoCodec initialMp4, p.videoCodec initialMp4
        ++ if p.hasAudio initialMp4 then Bytes.lit ",mp4a.40.2" else []) := by
  unfold FfmpegProcess.codecs FfmpegProcess.inspectInitialMp4 FfmpegProcess.videoCodec
    FfmpegProcess.hasAudio detectVideoCodec FfmpegProcess.mseCodecs
  have hsoun : containsAscii initialMp4 "soun" = containsAtom initialMp4 "soun" :=
    containsAscii_eq (by decide)
  have hhevc : containsAscii initialMp4 "hvcC" = containsAtom initialMp4 "hvcC" :=
    containsAscii_eq (by decide)
  have havc : containsAscii initialMp4 "avcC" = containsAtom initialMp4 "avcC" :=
    containsAscii_eq (by decide)
  rw [hsoun, hhevc, havc]
  grind

theorem length_videoCodec (p : FfmpegProcess) (hp : p.mseVideoCodec.length = 11) (initialMp4 : Bytes)
    : (p.videoCodec initialMp4).length = 11 := by
  unfold FfmpegProcess.videoCodec
  split
  . cases h : readAvcCodec initialMp4 with
    | none => exact hp
    | some codec => exact length_readAvcCodec h
  . exact hp

theorem hasAudio_append {p : FfmpegProcess} (h : p.hasAudio xs = true)
    : p.hasAudio (xs ++ ys) = true := by
  unfold FfmpegProcess.hasAudio at h ⊢
  rw [Bool.or_eq_true, Bool.and_eq_true] at h ⊢
  exact h.imp_right fun h => ⟨h.1, containsAtom_append (by decide) h.2⟩

theorem videoCodec_between {p : FfmpegProcess} {zs : Bytes}
    (hcodec : detectVideoCodec (xs ++ ys) = detectVideoCodec xs)
    (hcodec' : detectVideoCodec (xs ++ ys ++ zs) = detectVideoCodec xs)
    (h : p.videoCodec xs = p.videoCodec (xs ++ ys ++ zs))
    : p.videoCodec (xs ++ ys) = p.videoCodec xs := by
  unfold FfmpegProcess.videoCodec at h ⊢
  rw [hcodec' ] at h
  rw [hcodec]
  split at h
  . next hcopy =>
    rw [if_pos hcopy, if_pos hcopy]
    -- the letters are missing at first, or they are complete from here on
    cases hbetween : readAvcCodec (xs ++ ys) with
    | some codec =>
      rw [h, readAvcCodec_append hbetween]
    | none =>
      cases hfirst : readAvcCodec xs with
      | none => rfl
      | some codec =>
        rw [readAvcCodec_append hfirst] at hbetween
        contradiction
  . next hcopy =>
    rw [if_neg hcopy, if_neg hcopy]

theorem convex_codecs (p : FfmpegProcess) (hp : p.mseVideoCodec.length = 11)
    : Segments.Convex p.codecs := by
  intro xs ys zs h
  rw [codecs_eq, codecs_eq, Prod.mk.injEq] at h
  rw [codecs_eq, codecs_eq, Prod.mk.injEq]
  obtain ⟨hcodec, hmse⟩ := h
  have hbetween := convex_detectVideoCodec xs ys zs hcodec
  have hlength := length_videoCodec p hp
  have ⟨hvideo, haudio⟩ := List.append_inj hmse (by rw [hlength, hlength])
  refine ⟨hbetween, ?_⟩
  rw [videoCodec_between hbetween hcodec.symm hvideo]
  have hgrows : p.hasAudio xs = true → p.hasAudio (xs ++ ys) = true := hasAudio_append
  have hgrows' : p.hasAudio (xs ++ ys) = true → p.hasAudio (xs ++ ys ++ zs) = true := hasAudio_append
  have hsame : p.hasAudio (xs ++ ys) = p.hasAudio xs := by
    have hlit : Bytes.lit ",mp4a.40.2" ≠ [] := by decide
    grind
  rw [hsame]

theorem readInitialMp4_eq (p : FfmpegProcess) (after : OutputEnd) (memory : Bytes) (reads : List Bytes)
    : (p.readInitialMp4 after memory reads).toOption
        = Segments.collect Pipeline.initialized (4 * 1024 * 1024) memory reads := by
  induction reads generalizing memory with
  | nil =>
    unfold FfmpegProcess.readInitialMp4
    split
    . cases after with
      | closed => rfl
      | silent => rfl
    . rfl
  | cons data reads ih =>
    unfold FfmpegProcess.readInitialMp4 Segments.collect
    have hready : (containsAscii (memory ++ data) "ftyp" && containsAscii (memory ++ data) "moov")
        = Pipeline.initialized (memory ++ data) := by
      rw [containsAscii_eq (by decide), containsAscii_eq (by decide)]
      rfl
    split
    . next hlimit =>
      rw [if_neg (Nat.not_le_of_lt hlimit)]
      simp only [hready]
      split
      . rfl
      . exact ih _
    . next hlimit =>
      rw [if_pos (Nat.le_of_not_lt hlimit)]
      rfl

end

/--
The letters `ftyp` and `moov` are complete within the limit of the loop or not at all, and the bytes
that complete them say the same about the codecs as they do with all that may arrive in the same read.
-/
def Settled {β : Type} (f : Bytes → β) (stream : Bytes) : Prop :=
  ∀ k, Segments.Completes Pipeline.initialized stream k → k < 4 * 1024 * 1024 + 32768 →
    k ≤ 4 * 1024 * 1024 ∧ f (stream.take k) = f (stream.take (k - 1 + 32768))

theorem independent_iff {β : Type} {f : Bytes → β} (hf : Segments.Convex f) (stream : Bytes)
    : (∀ pieces pieces', Segments.Cuts 32768 stream pieces → Segments.Cuts 32768 stream pieces' →
          (Segments.collect Pipeline.initialized (4 * 1024 * 1024) [] pieces).map f
            = (Segments.collect Pipeline.initialized (4 * 1024 * 1024) [] pieces').map f)
        ↔
      Settled f stream := by
  apply Segments.collect_independent grows_initialized
  . decide
  . decide
  . decide
  . exact hf

def probeOutcome : Option DetectedVideoCodec → Outcome Exn DetectedVideoCodec
  | some codec => .ok codec
  | none => .error (.bridge Pipeline.ffmpegNoMp4)

theorem probeOutcome_injective : Function.Injective probeOutcome := by
  intro x y h
  cases x with
  | none =>
    cases y with
    | none => rfl
    | some codec => contradiction
  | some codec =>
    cases y with
    | none => contradiction
    | some codec' =>
      cases h
      rfl

/--
The codec does not depend on how the pipe cuts the stream exactly for the settled streams, in the C++
bridge and, with the text for the browser, in the C# bridge.
-/
theorem cut_independent (v : Setting) (probing : Pipeline.Probing)
    (audioRequested outputHasAudio : Bool) (videoOutputMode : VideoOutputMode) (errorText : List Char)
    (after : OutputEnd) (stream : Bytes)
    : let process : FfmpegProcess := { audioRequested, outputHasAudio, videoOutputMode, errorText }
      ((∀ pieces pieces', Segments.Cuts 32768 stream pieces → Segments.Cuts 32768 stream pieces' →
          (Pipeline.probedCodec v probing.pipeline (Pipeline.arrivals v pieces)).1
            = (Pipeline.probedCodec v probing.pipeline (Pipeline.arrivals v pieces')).1)
        ↔ Settled detectVideoCodec stream) ∧
      ((∀ pieces pieces', Segments.Cuts 32768 stream pieces → Segments.Cuts 32768 stream pieces' →
          process.inspectedCodecs after pieces = process.inspectedCodecs after pieces')
        ↔ Settled process.codecs stream) := by
  intro process
  constructor
  . rw [← independent_iff convex_detectVideoCodec]
    have hprobed : ∀ pieces, Segments.Cuts 32768 stream pieces →
        (Pipeline.probedCodec v probing.pipeline (Pipeline.arrivals v pieces)).1 = probeOutcome
          ((Segments.collect Pipeline.initialized (4 * 1024 * 1024) [] pieces).map detectVideoCodec) := by
      intro pieces hcuts
      rw [Pipeline.probedCodec_arrivals probing hcuts.nonempty hcuts.bounded]
      cases Segments.collect Pipeline.initialized (4 * 1024 * 1024) [] pieces with
      | none => rfl
      | some initialMp4 => rfl
    constructor
    . intro h pieces pieces' hcuts hcuts'
      apply probeOutcome_injective
      rw [← hprobed pieces hcuts, ← hprobed pieces' hcuts']
      exact h pieces pieces' hcuts hcuts'
    . intro h pieces pieces' hcuts hcuts'
      rw [hprobed pieces hcuts, hprobed pieces' hcuts', h pieces pieces' hcuts hcuts']
  . have hconvex : Segments.Convex process.codecs := convex_codecs process (by rfl)
    have hmap : ∀ pieces, process.inspectedCodecs after pieces
        = (Segments.collect Pipeline.initialized (4 * 1024 * 1024) [] pieces).map process.codecs := by
      intro pieces
      rw [← readInitialMp4_eq process after]
      unfold FfmpegProcess.inspectedCodecs
      cases process.readInitialMp4 after [] pieces with
      | ok initialMp4 => rfl
      | error exn => rfl
    simp only [hmap]
    exact independent_iff hconvex stream

def box (kind : String) (content : Bytes) : Bytes :=
  [0, 0, UInt8.ofNat ((content.length + 8) / 256), UInt8.ofNat (content.length + 8)]
    ++ Bytes.lit kind ++ content

-- The initial fragment of an H.264 stream, as far as the configuration of its decoder.
def avcInitialMp4 : Bytes :=
  let avcC := box "avcC" [1, 77, 0, 31, 255, 225, 0, 0, 0]
  let avc1 := box "avc1" (List.replicate 78 0 ++ avcC)
  let stsd := box "stsd" ([0, 0, 0, 0, 0, 0, 0, 1] ++ avc1)
  box "ftyp" (Bytes.lit "isom" ++ [0, 0, 2, 0] ++ Bytes.lit "isomiso6mp41")
    ++ box "moov" (box "mvhd" (List.replicate 100 0)
      ++ box "trak" (box "mdia" (box "minf" (box "stbl" stsd))))

def probingLiveView : Pipeline.Probing where
  pipeline := { env := {}, heap := { ({} : Heap).newProcess .Copy false with probeFfmpeg := some 0 } }
  process := { id := 0, outputMode := .Copy, hardwareEnabled := false }
  running := rfl
  cancelled := rfl
  slot := rfl
  alive := rfl

def detectedFrom (pieces : List Bytes) : Outcome Exn DetectedVideoCodec :=
  (Pipeline.probedCodec World.liveView probingLiveView.pipeline
    (Pipeline.arrivals World.liveView pieces)).1

def netDetectedFrom (pieces : List Bytes) : Option (DetectedVideoCodec × Bytes) :=
  FfmpegProcess.inspectedCodecs { audioRequested := true, videoOutputMode := .Copy } .closed pieces

/--
The same fragment in one read and in two.
-/
theorem cut_independent_avcC
    : detectedFrom [avcInitialMp4] = .ok .H264 ∧
        detectedFrom [avcInitialMp4.take 64, avcInitialMp4.drop 64] = .ok .Unknown ∧
        netDetectedFrom [avcInitialMp4] = some (.H264, Bytes.lit "avc1.4d001f") ∧
        netDetectedFrom [avcInitialMp4.take 64, avcInitialMp4.drop 64]
          = some (.Unknown, Bytes.lit "avc1.640029") := by
  decide +kernel

end NetBridge
end HikBridge
