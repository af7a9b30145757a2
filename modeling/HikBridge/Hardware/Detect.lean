import HikBridge.Http.ReadHttpRequest
import HikBridge.Lib.Delimited
import HikBridge.Lib.Program
import HikBridge.Lib.Search
import HikBridge.Numbers
import HikBridge.Video.Arguments
import Mathlib.Data.List.Find

/-!
This module contains `FfmpegHardwareAcceleration::detect` on Windows, with the processes that it runs,
and the proof that every FFmpeg that transcodes does so with an encoder that passed a test.
-/

namespace HikBridge

open Program

structure CapturedProcessResult where
  exitCode : Int := -1
  timedOut : Bool := false
  output : Bytes := []
  deriving DecidableEq, Repr

def CapturedProcessResult.passed (result : CapturedProcessResult) : Bool :=
  !result.timedOut && result.exitCode == 0

structure Probe where
  arguments : List Bytes
  result : CapturedProcessResult
  deriving DecidableEq, Repr

-- The name of a candidate is only logged.
structure Candidate where
  backend : HardwareBackend
  method : Bytes
  encoder : Bytes
  deriving DecidableEq, Repr

/--
A part of `detect`: the state keeps the processes that have run so far, the environment answers what
comes of each.
-/
abbrev Detection (α : Type) : Type := Program (List Probe) CapturedProcessResult BridgeError α

namespace FfmpegHardwareAcceleration

def normalize (value : Bytes) : Bytes :=
  let value := value.map toLower
  if value = Bytes.lit "none" ∨ value = Bytes.lit "disabled" ∨ value = Bytes.lit "software" then
    Bytes.lit "off"
  else if value = Bytes.lit "nvenc" ∨ value = Bytes.lit "cuda" then Bytes.lit "nvidia"
  else if value = Bytes.lit "intel" then Bytes.lit "qsv"
  else if value = Bytes.lit "amd" then Bytes.lit "amf"
  else value

def hasToken (text token : Bytes) : Bool :=
  (Delimited.lines 10 text).any fun line => (Search.words isSpace line).contains token

def nvidia : Candidate := ⟨.nvidiaNvenc, Bytes.lit "cuda", Bytes.lit "h264_nvenc"⟩

def qsv : Candidate := ⟨.intelQsv, Bytes.lit "qsv", Bytes.lit "h264_qsv"⟩

def amf : Candidate := ⟨.amdAmf, Bytes.lit "amf", Bytes.lit "h264_amf"⟩

def candidates (requested : Bytes) : List Candidate :=
  if requested = Bytes.lit "nvidia" then [nvidia]
  else if requested = Bytes.lit "qsv" then [qsv]
  else if requested = Bytes.lit "amf" then [amf]
  else [nvidia, qsv, amf]

def testArguments (encoder : Bytes) : List Bytes :=
  texts ["-hide_banner", "-loglevel", "error", "-f", "lavfi", "-i", "color=c=black:s=64x64:r=1",
    "-frames:v", "1", "-an", "-c:v"] ++ [encoder] ++ texts ["-f", "null", "-"]

def hwaccelsArguments : List Bytes := texts ["-hide_banner", "-hwaccels"]

def encodersArguments : List Bytes := texts ["-hide_banner", "-encoders"]

def runWindowsProcess (arguments : List Bytes) : Detection CapturedProcessResult := do
  let result ← ask
  update (· ++ [⟨arguments, result⟩])
  pure result

def isListed (hwaccels encoders : Bytes) (candidate : Candidate) : Bool :=
  hasToken hwaccels candidate.method && hasToken encoders candidate.encoder

def testCandidates (hwaccels encoders : Bytes) : List Candidate → Detection FfmpegHardwareAcceleration
  | [] => pure {}
  | candidate :: rest =>
    if !isListed hwaccels encoders candidate then
      testCandidates hwaccels encoders rest
    else do
      let test ← runWindowsProcess (testArguments candidate.encoder)
      if test.passed then
        pure ⟨some candidate.backend⟩
      else
        testCandidates hwaccels encoders rest

def softwareUnavailable : BridgeError :=
  ⟨500, "FFMPEG_SOFTWARE_ENCODER_UNAVAILABLE", "FFmpeg 软件 H.264 编码器探测失败"⟩

def detect (config : Config) : Detection FfmpegHardwareAcceleration := do
  let requested := normalize config.hardwareAcceleration
  let software ← runWindowsProcess (testArguments config.videoEncoder)
  if !software.passed then
    raise softwareUnavailable
  else if requested = Bytes.lit "off" then
    pure {}
  else
    let hwaccels ← runWindowsProcess hwaccelsArguments
    let encoders ← runWindowsProcess encodersArguments
    if !hwaccels.passed || !encoders.passed then
      pure {}
    else
      testCandidates hwaccels.output encoders.output (candidates requested)

def passedTest (tests : List Probe) (encoder : Bytes) : Bool :=
  tests.any fun probe => probe.arguments = testArguments encoder && probe.result.passed

def firstUsable (hwaccels encoders : Bytes) (tests : List Probe) (cs : List Candidate)
    : Option Candidate :=
  cs.find? fun c => isListed hwaccels encoders c && passedTest tests c.encoder

inductive Tests : List Candidate → List Probe → Option HardwareBackend → Prop where
  | none : Tests [] [] none
  | passes {c : Candidate} {cs : List Candidate} {result : CapturedProcessResult} (hpassed : result.passed)
    : Tests (c :: cs) [⟨testArguments c.encoder, result⟩] (some c.backend)
  | fails {c : Candidate} {cs : List Candidate} {result : CapturedProcessResult} {tests : List Probe}
    {backend : Option HardwareBackend} (hfailed : ¬result.passed) (hrest : Tests cs tests backend)
    : Tests (c :: cs) (⟨testArguments c.encoder, result⟩ :: tests) backend

inductive Detected (config : Config) : FfmpegHardwareAcceleration → List Probe → Prop where
  | off {software : CapturedProcessResult} (hsoftware : software.passed)
    (hrequested : normalize config.hardwareAcceleration = Bytes.lit "off")
    : Detected config {} [⟨testArguments config.videoEncoder, software⟩]
  | unlisted {software hwaccels encoders : CapturedProcessResult} (hsoftware : software.passed)
    (hrequested : normalize config.hardwareAcceleration ≠ Bytes.lit "off")
    (hlisted : ¬(hwaccels.passed ∧ encoders.passed))
    : Detected config {}
        [⟨testArguments config.videoEncoder, software⟩, ⟨hwaccelsArguments, hwaccels⟩,
          ⟨encodersArguments, encoders⟩]
  | tested {software hwaccels encoders : CapturedProcessResult} {tests : List Probe}
    {hardware : FfmpegHardwareAcceleration} (hsoftware : software.passed)
    (hrequested : normalize config.hardwareAcceleration ≠ Bytes.lit "off")
    (hlisted : hwaccels.passed ∧ encoders.passed)
    (hbackend : hardware.backend
      = (firstUsable hwaccels.output encoders.output tests
          (candidates (normalize config.hardwareAcceleration))).map Candidate.backend)
    (htests : Tests ((candidates (normalize config.hardwareAcceleration)).filter
      (isListed hwaccels.output encoders.output)) tests hardware.backend)
    : Detected config hardware
        ([⟨testArguments config.videoEncoder, software⟩, ⟨hwaccelsArguments, hwaccels⟩,
          ⟨encodersArguments, encoders⟩] ++ tests)

section Spec

variable {hwaccels encoders : Bytes} {before : List Probe} {cs : List Candidate}

theorem testArguments_inj {a b : Bytes} (h : testArguments a = testArguments b) : a = b := by
  unfold testArguments at h
  simpa using h

theorem triple_runWindowsProcess {arguments : List Bytes} {E : BridgeError → List Probe → Prop}
    : Triple (fun s => s = before) (runWindowsProcess arguments)
        (fun result s => s = before ++ [⟨arguments, result⟩]) E (fun _ => True) := by
  apply triple_bind (R := fun _ s => s = before)
  . exact triple_ask (fun _ _ => trivial) fun _ _ h => h
  intro result
  apply triple_bind (R := fun _ s => s = before ++ [⟨arguments, result⟩])
  . apply triple_update
    rintro s rfl
    rfl
  intro _
  exact triple_pure fun _ h => h

theorem passedTest_cons_of_ne {probe : Probe} {tests : List Probe} {encoder : Bytes}
    (h : probe.arguments ≠ testArguments encoder)
    : passedTest (probe :: tests) encoder = passedTest tests encoder := by
  simp [passedTest, h]

theorem Tests.mem {backend : Option HardwareBackend} {tests : List Probe} (h : Tests cs tests backend)
    : ∀ probe ∈ tests, ∃ c ∈ cs, probe.arguments = testArguments c.encoder := by
  induction h with
  | none => exact List.forall_mem_nil _
  | @passes c cs result _ => exact List.forall_mem_singleton.mpr ⟨c, List.mem_cons_self, rfl⟩
  | @fails c cs result tests backend _ _ ih =>
    refine List.forall_mem_cons.mpr ⟨⟨c, List.mem_cons_self, rfl⟩, fun probe hprobe => ?_⟩
    obtain ⟨c', hc', heq⟩ := ih probe hprobe
    exact ⟨c', List.mem_cons_of_mem c hc', heq⟩

theorem Tests.backend_eq {backend : Option HardwareBackend} {tests : List Probe} (h : Tests cs tests backend)
    (hnodup : (cs.map Candidate.encoder).Nodup)
    : backend = (cs.find? fun c => passedTest tests c.encoder).map Candidate.backend := by
  induction h with
  | none => rfl
  | @passes c cs result hpassed => simp [passedTest, hpassed]
  | @fails c cs result tests backend hfailed hrest ih =>
    rw [List.map_cons, List.nodup_cons] at hnodup
    -- no test of another candidate is one of `c`
    have hfirst : passedTest (⟨testArguments c.encoder, result⟩ :: tests) c.encoder = false := by
      simp only [passedTest, List.any_cons, hfailed, Bool.and_false, Bool.false_or,
        List.any_eq_false, Bool.and_eq_true, decide_eq_true_eq, not_and]
      intro probe hprobe heq
      obtain ⟨c', hc', heq'⟩ := hrest.mem probe hprobe
      have hsame := testArguments_inj (heq.symm.trans heq')
      exact absurd (List.mem_map.mpr ⟨c', hc', hsame.symm⟩) hnodup.1
    have hothers : ∀ c' ∈ cs, passedTest (⟨testArguments c.encoder, result⟩ :: tests) c'.encoder
        = passedTest tests c'.encoder := by
      intro c' hc'
      apply passedTest_cons_of_ne
      intro heq
      exact hnodup.1 (List.mem_map.mpr ⟨c', hc', (testArguments_inj heq).symm⟩)
    rw [ih hnodup.2, List.find?_cons, hfirst, List.find?_congr hothers]

theorem triple_testCandidates
    : Triple (fun s => s = before) (testCandidates hwaccels encoders cs)
        (fun hardware s =>
          ∃ tests, s = before ++ tests ∧ Tests (cs.filter (isListed hwaccels encoders)) tests hardware.backend)
        (fun _ _ => False) (fun _ => True) := by
  induction cs generalizing before with
  | nil =>
    apply triple_pure
    intro s hs
    exact ⟨[], by rw [hs, List.append_nil], .none⟩
  | cons c cs ih =>
    unfold testCandidates
    apply triple_ite
    . intro hlisted
      rw [Bool.not_eq_true'] at hlisted
      rw [List.filter_cons_of_neg (by simp [hlisted])]
      exact ih
    . intro hlisted
      rw [Bool.not_eq_true, Bool.not_eq_false'] at hlisted
      rw [List.filter_cons_of_pos hlisted]
      apply triple_bind triple_runWindowsProcess
      intro test
      apply triple_ite
      . intro hpassed
        apply triple_pure
        intro s hs
        exact ⟨_, hs, .passes hpassed⟩
      . intro hfailed
        apply ih.conseq (fun _ => id) _ (fun _ _ => id) (fun _ => id)
        rintro hardware s ⟨tests, hs, htests⟩
        refine ⟨⟨testArguments c.encoder, test⟩ :: tests, ?_, .fails hfailed htests⟩
        rw [hs, List.append_assoc, List.singleton_append]

theorem Tests.firstUsable_eq {backend : Option HardwareBackend} {tests : List Probe}
    (h : Tests (cs.filter (isListed hwaccels encoders)) tests backend)
    (hnodup : (cs.map Candidate.encoder).Nodup)
    : backend = (firstUsable hwaccels encoders tests cs).map Candidate.backend := by
  have hsublist : ((cs.filter (isListed hwaccels encoders)).map Candidate.encoder).Nodup :=
    hnodup.sublist (List.filter_sublist.map _)
  rw [h.backend_eq hsublist, List.find?_filter, firstUsable]
  simp only [Bool.decide_and, Bool.decide_eq_true]

theorem nodup_candidates (requested : Bytes) : ((candidates requested).map Candidate.encoder).Nodup := by
  unfold candidates
  split
  . decide
  . split
    . decide
    . split <;> decide

theorem mem_candidates {requested : Bytes} {c : Candidate} (h : c ∈ candidates requested)
    : c = nvidia ∨ c = qsv ∨ c = amf := by
  unfold candidates at h
  grind

theorem triple_detect (config : Config)
    : Triple (fun s => s = []) (detect config) (Detected config)
        (fun e s =>
          e = softwareUnavailable
            ∧ ∃ software : CapturedProcessResult,
                software.passed = false ∧ s = [⟨testArguments config.videoEncoder, software⟩])
        (fun _ => True) := by
  unfold detect
  apply triple_bind triple_runWindowsProcess
  intro software
  apply triple_ite
  . intro hfailed
    rw [Bool.not_eq_true'] at hfailed
    apply triple_raise
    intro s hs
    exact ⟨rfl, software, hfailed, hs⟩
  intro hpassed
  rw [Bool.not_eq_true, Bool.not_eq_false'] at hpassed
  apply triple_ite
  . intro hoff
    apply triple_pure
    rintro s rfl
    exact .off hpassed hoff
  intro hrequested
  apply triple_bind triple_runWindowsProcess
  intro hwaccels
  apply triple_bind triple_runWindowsProcess
  intro encoders
  apply triple_ite
  . intro hunlisted
    apply triple_pure
    rintro s rfl
    refine .unlisted hpassed hrequested fun hlisted => ?_
    rw [hlisted.1, hlisted.2] at hunlisted
    cases hunlisted
  . intro hlisted
    simp only [Bool.or_eq_true, Bool.not_eq_true', not_or, Bool.not_eq_false] at hlisted
    apply triple_testCandidates.conseq (fun _ => id) _ (fun _ _ => False.elim) (fun _ => id)
    rintro hardware s ⟨tests, rfl, htests⟩
    exact .tested hpassed hrequested hlisted (htests.firstUsable_eq (nodup_candidates _)) htests

theorem exists_of_passedTest {tests : List Probe} {encoder : Bytes} (h : passedTest tests encoder)
    : ∃ probe ∈ tests, probe.arguments = testArguments encoder ∧ probe.result.passed := by
  obtain ⟨probe, hprobe, heq⟩ := List.any_eq_true.mp h
  rw [Bool.and_eq_true, decide_eq_true_eq] at heq
  exact ⟨probe, hprobe, heq⟩

theorem Detected.software_mem {config : Config} {hardware : FfmpegHardwareAcceleration}
    {probes : List Probe} (h : Detected config hardware probes)
    : ∃ probe ∈ probes, probe.arguments = testArguments config.videoEncoder ∧ probe.result.passed := by
  cases h with
  | off hsoftware => exact ⟨_, List.mem_cons_self, rfl, hsoftware⟩
  | unlisted hsoftware => exact ⟨_, List.mem_cons_self, rfl, hsoftware⟩
  | tested hsoftware => exact ⟨_, List.mem_cons_self, rfl, hsoftware⟩

theorem Detected.backend_mem {config : Config} {hardware : FfmpegHardwareAcceleration}
    {probes : List Probe} (h : Detected config hardware probes) (hbackend : hardware.backend ≠ none)
    : ∃ probe ∈ probes,
        probe.arguments = testArguments (hardware.selectPlan .H264Transcode false).videoEncoder
          ∧ probe.result.passed := by
  cases h with
  | off => exact absurd rfl hbackend
  | unlisted => exact absurd rfl hbackend
  | @tested software hwaccels encoders tests _ _ _ _ heq =>
    cases hfirst : firstUsable hwaccels.output encoders.output tests
        (candidates (normalize config.hardwareAcceleration)) with
    | none =>
      rw [hfirst] at heq
      exact absurd heq hbackend
    | some c =>
      rw [hfirst] at heq
      have husable := List.find?_some hfirst
      rw [Bool.and_eq_true] at husable
      obtain ⟨probe, hprobe, hargs, hpassed⟩ := exists_of_passedTest husable.2
      have hplan : (hardware.selectPlan .H264Transcode false).videoEncoder = c.encoder := by
        rw [selectPlan, heq]
        rcases mem_candidates (List.mem_of_find?_eq_some hfirst) with rfl | rfl | rfl
        all_goals rfl
      rw [hplan]
      exact ⟨probe, List.mem_append_right _ hprobe, hargs, hpassed⟩

/--
The software encoder is tested first and has to pass. Unless the hardware is off or cannot be listed,
the backend is the first candidate that FFmpeg lists and that passes its test.
-/
theorem detect_spec (config : Config) (answers : List CapturedProcessResult)
    : Ends (Detected config)
        (fun e s =>
          e = softwareUnavailable
            ∧ ∃ software : CapturedProcessResult,
                software.passed = false ∧ s = [⟨testArguments config.videoEncoder, software⟩])
        (fun _ => True) (detect config [] answers) :=
  triple_detect config [] answers rfl

theorem of_hardwareEnabled {hardware : FfmpegHardwareAcceleration} {mode : VideoOutputMode}
    {force : Bool} (h : (hardware.selectPlan mode force).hardwareEnabled)
    : force = false
        ∧ hardware.backend ≠ none
        ∧ ((hardware.selectPlan mode force).videoEncoder = Bytes.lit "h264_nvenc"
          ∨ (hardware.selectPlan mode force).videoEncoder = Bytes.lit "h264_qsv"
          ∨ (hardware.selectPlan mode force).videoEncoder = Bytes.lit "h264_amf") := by
  unfold selectPlan at h ⊢
  split at h
  . cases h
  . next hplain =>
    rw [if_neg hplain]
    refine ⟨by simp_all, fun hnone => ?_, ?_⟩
    . rw [hnone] at h
      cases h
    . split at h <;> simp_all

theorem exists_videoArguments (setup : FfmpegSetup) (hmode : setup.outputMode = .H264Transcode)
    : ∃ rest,
        setup.videoArguments
          = Bytes.lit "-c:v"
            :: (if setup.plan.hardwareEnabled then setup.plan.videoEncoder else setup.config.videoEncoder)
            :: rest := by
  have hvideo : ∃ rest, setup.videoArguments = setup.encoderArguments ++ rest := by
    rw [FfmpegSetup.videoArguments, hmode]
    exact ⟨_, List.append_assoc _ _ _⟩
  obtain ⟨rest, hvideo⟩ := hvideo
  rw [hvideo]
  cases hplan : setup.plan.hardwareEnabled with
  | false =>
    rw [FfmpegSetup.encoderArguments, hplan]
    exact ⟨_, rfl⟩
  | true =>
    have hencoder := (of_hardwareEnabled hplan).2.2
    rw [FfmpegSetup.encoderArguments, hplan]
    rcases hencoder with hencoder | hencoder | hencoder <;> rw [FfmpegSetup.plan, hencoder]
    . exact ⟨_, rfl⟩
    . exact ⟨_, rfl⟩
    . exact ⟨_, rfl⟩

/--
Every FFmpeg that transcodes does so with an encoder that has passed a test at the start of the bridge,
on the hardware or off it.
-/
theorem transcodes_with_tested_encoder (setup : FfmpegSetup) (answers : List CapturedProcessResult)
    (hmode : setup.outputMode = .H264Transcode)
    : Ends
        (fun hardware probes => setup.hardware = hardware →
          ∃ probe ∈ probes, ∃ encoder rest,
            probe.arguments = testArguments encoder
              ∧ probe.result.passed
              ∧ setup.videoArguments = Bytes.lit "-c:v" :: encoder :: rest)
        (fun _ _ => True) (fun _ => True) (detect setup.config [] answers) := by
  apply (triple_detect setup.config [] answers rfl).mono _ (fun _ _ _ => trivial) (fun _ => id)
  rintro hardware probes hdetected rfl
  obtain ⟨rest, hvideo⟩ := exists_videoArguments setup hmode
  split at hvideo
  . next hplan =>
    obtain ⟨hforce, hbackend, -⟩ := of_hardwareEnabled hplan
    obtain ⟨probe, hprobe, hargs, hpassed⟩ := hdetected.backend_mem hbackend
    refine ⟨probe, hprobe, _, rest, hargs, hpassed, ?_⟩
    rw [hvideo, FfmpegSetup.plan, hmode, hforce]
  . obtain ⟨probe, hprobe, hargs, hpassed⟩ := hdetected.software_mem
    exact ⟨probe, hprobe, _, rest, hargs, hpassed, hvideo⟩

-- A host with an Intel GPU: FFmpeg lists NVENC too, but its test fails.
def intelAnswers : List CapturedProcessResult :=
  [{ exitCode := 0 }, { exitCode := 0, output := Bytes.lit "Methods:\ncuda\nqsv\n" },
    { exitCode := 0, output := Bytes.lit " V....D h264_nvenc NVENC\n V..... h264_qsv H.264\n" },
    { exitCode := 1 }, { exitCode := 0 }]

def intelSetup : FfmpegSetup := { FfmpegSetup.transcoding {} with hardware := ⟨some .intelQsv⟩ }

theorem transcodes_with_tested_encoder_sample
    : ∃ probes,
        detect intelSetup.config [] intelAnswers = (.ok intelSetup.hardware, probes, [])
          ∧ ∃ probe ∈ probes, ∃ encoder rest,
              probe.arguments = testArguments encoder
                ∧ probe.result.passed
                ∧ intelSetup.videoArguments = Bytes.lit "-c:v" :: encoder :: rest :=
  ⟨_, rfl, transcodes_with_tested_encoder intelSetup intelAnswers rfl rfl⟩

end Spec
end FfmpegHardwareAcceleration
end HikBridge
