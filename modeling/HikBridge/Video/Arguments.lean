import HikBridge.Config.Basic
import HikBridge.Http.JsonAnswers
import HikBridge.Http.StreamRequest
import HikBridge.Lib.CommandLine
import HikBridge.WindowsService.Basic

/-!
This module contains how FFmpeg is started on the two platforms: the arguments that it is meant to have,
and what of them arrives.
-/

namespace HikBridge

open CommandLine
open Json (IsUtf8)

-- The name of the backend is only logged.
structure FfmpegTranscodePlan where
  hardwareEnabled : Bool := false
  videoEncoder : Bytes := []

-- Without a backend the video is transcoded in software.
structure FfmpegHardwareAcceleration where
  backend : Option HardwareBackend := none

def FfmpegHardwareAcceleration.selectPlan (hardware : FfmpegHardwareAcceleration)
    (outputMode : VideoOutputMode) (forceSoftware : Bool) : FfmpegTranscodePlan :=
  if outputMode = .Copy ∨ forceSoftware then
    {}
  else
    match hardware.backend with
    | none => {}
    | some .nvidiaNvenc => ⟨true, Bytes.lit "h264_nvenc"⟩
    | some .intelQsv => ⟨true, Bytes.lit "h264_qsv"⟩
    | some .amdAmf => ⟨true, Bytes.lit "h264_amf"⟩

def utf8 (text : List Char) : Bytes := text.flatMap String.utf8EncodeChar

def texts (texts : List String) : List Bytes := texts.map Bytes.lit

/--
What a configuration and a request make of FFmpeg. `speedText` is how a stream with a precision of 8
writes a number.
-/
structure FfmpegSetup where
  config : Config
  speed : Float.Model
  outputMode : VideoOutputMode
  hardware : FfmpegHardwareAcceleration
  forceSoftware : Bool
  speedText : Float.Model → List Char

namespace FfmpegSetup

variable (setup : FfmpegSetup)

def plan : FfmpegTranscodePlan := setup.hardware.selectPlan setup.outputMode setup.forceSoftware

def encoderArguments : List Bytes :=
  if !setup.plan.hardwareEnabled then
    texts ["-c:v"] ++ [setup.config.videoEncoder] ++ texts ["-preset"] ++ [setup.config.videoPreset]
      ++ texts ["-tune", "zerolatency", "-pix_fmt", "yuv420p"]
  else if setup.plan.videoEncoder = Bytes.lit "h264_nvenc" then
    texts ["-c:v", "h264_nvenc", "-preset", "p4", "-tune", "ll", "-rc", "vbr"]
  else if setup.plan.videoEncoder = Bytes.lit "h264_qsv" then
    texts ["-c:v", "h264_qsv", "-preset", "veryfast"]
  else if setup.plan.videoEncoder = Bytes.lit "h264_amf" then
    texts ["-c:v", "h264_amf", "-usage", "lowlatency", "-quality", "speed"]
  else
    []

def speedArguments : List Bytes :=
  if isOne setup.speed then
    []
  else
    texts ["-vf"] ++ [Bytes.lit "setpts=PTS/" ++ utf8 (setup.speedText setup.speed)]

def videoArguments : List Bytes :=
  match setup.outputMode with
  | .Copy => texts ["-c:v", "copy"]
  | .H264Transcode =>
    setup.encoderArguments
      ++ texts ["-profile:v", "high", "-level:v", "4.1", "-g", "25", "-keyint_min", "25",
        "-sc_threshold", "0"]
      ++ setup.speedArguments

def audioArguments : List Bytes :=
  if setup.config.enableAudio ∧ isOne setup.speed then
    texts ["-map", "0:a:0?", "-c:a", "aac", "-ar", "48000", "-ac", "2"]
  else
    texts ["-an"]

def buildArguments : List Bytes :=
  texts ["-hide_banner", "-loglevel"] ++ [setup.config.ffmpegLogLevel]
    ++ texts ["-fflags", "+genpts+nobuffer", "-analyzeduration", "250000", "-probesize", "262144",
      "-i", "pipe:0", "-map", "0:v:0"]
    ++ setup.videoArguments
    ++ setup.audioArguments
    ++ texts ["-f", "mp4", "-movflags", "frag_keyframe+empty_moov+default_base_moof+omit_tfhd_offset",
      "-frag_duration", "250000", "pipe:1"]

end FfmpegSetup

def quoteWindowsArgument (value : List Char) : List Char :=
  if value.any fun c => c == ' ' || c == '\t' || c == '"' then
    '"' :: (encode 0 value ++ ['"'])
  else
    value

/--
What the bridge asks of Windows: the text of a UTF-8 string, the name of a path, and the error of a start
that fails. No file has a quote in its name.
-/
structure WindowsHost where
  multiByteToWideChar : Bytes → List Char
  multiByteToWideChar_utf8 : ∀ text, multiByteToWideChar (utf8 text) = text
  wstring : Bytes → List Char
  startError : List Char → Option Nat
  unquoted : ∀ path, startError path = none → '"' ∉ path

def utf8ToWide (windows : WindowsHost) (value : Bytes) : List Char :=
  if value = [] then [] else windows.multiByteToWideChar value

def startWindows (windows : WindowsHost) (config : Config) (arguments : List Bytes)
    : Except BridgeError (List Char) :=
  let path := windows.wstring config.ffmpegPath
  let command := quoteWindowsArgument path
    ++ arguments.flatMap fun argument => ' ' :: quoteWindowsArgument (utf8ToWide windows argument)
  match windows.startError path with
  | none => .ok command
  | some error =>
    .error ⟨500, "FFMPEG_START_FAILED", "启动 FFmpeg 进程失败，系统错误=" ++ toString error⟩

def startLinux (arguments : List Bytes) : List Bytes := Bytes.lit "ffmpeg" :: arguments

section Quoting

variable {value path rest : List Char} {windows : WindowsHost}

theorem quoteWindowsArgument_eq_nil : quoteWindowsArgument value = [] ↔ value = [] := by
  unfold quoteWindowsArgument
  split
  . next hspecial =>
    constructor
    . intro h
      cases h
    . rintro rfl
      cases hspecial
  . rfl

theorem plain_of_not_special (h : ¬(value.any fun c => c == ' ' || c == '\t' || c == '"') = true)
    : ∀ c ∈ value, ¬Blank c ∧ c ≠ '"' := by
  intro c hc
  simp only [List.any_eq_true, Bool.or_eq_true, beq_iff_eq, not_exists, not_and, not_or] at h
  obtain ⟨⟨hspace, htab⟩, hquote⟩ := h c hc
  exact ⟨not_or.mpr ⟨hspace, htab⟩, hquote⟩

theorem reads_quoteWindowsArgument (hne : value ≠ []) : CommandLine.Reads (quoteWindowsArgument value) value := by
  unfold quoteWindowsArgument
  split
  . exact reads_encode value
  . next hplain => exact reads_unquoted hne (plain_of_not_special hplain)

theorem program_quoteWindowsArgument (hquote : '"' ∉ path) (hrest : CommandLine.Ended rest)
    : (program false (quoteWindowsArgument path ++ rest)).2 = rest := by
  unfold quoteWindowsArgument
  split
  . rw [List.cons_append, List.append_assoc, List.singleton_append,
      program_quoted (not_mem_encode (by decide) hquote) hrest]
  . next hplain => rw [program_plain (plain_of_not_special hplain) hrest]

theorem arguments_quoteWindowsArgument (args : List (List Char))
    : arguments (args.flatMap fun arg => ' ' :: quoteWindowsArgument arg) = args.filter (· ≠ []) := by
  rw [arguments_spaced]
  . simp only [ne_eq, quoteWindowsArgument_eq_nil]
  . intro arg _ hne
    exact reads_quoteWindowsArgument fun hempty => hne (quoteWindowsArgument_eq_nil.mpr hempty)

theorem utf8_utf8ToWide {value : Bytes} (h : IsUtf8 value) : utf8 (utf8ToWide windows value) = value := by
  unfold utf8ToWide
  split
  . next hempty =>
    rw [hempty]
    rfl
  . obtain ⟨text, rfl⟩ := h
    exact congrArg utf8 (windows.multiByteToWideChar_utf8 text)

theorem utf8_eq_nil {text : List Char} : utf8 text = [] ↔ text = [] := by
  cases text with
  | nil => simp [utf8]
  | cons c text =>
    have hchar : String.utf8EncodeChar c ≠ [] := String.utf8EncodeChar_ne_nil
    simp [utf8, hchar]

theorem mainArguments_startWindows {config : Config} {arguments : List Bytes} {command : List Char}
    (hutf8 : ∀ argument ∈ arguments, IsUtf8 argument)
    (hstart : startWindows windows config arguments = .ok command)
    : (mainArguments command).tail.map utf8 = arguments.filter (· ≠ []) := by
  unfold startWindows at hstart
  dsimp only at hstart
  split at hstart
  . next hstarted =>
    cases hstart
    have hended : CommandLine.Ended (arguments.flatMap fun argument =>
        ' ' :: quoteWindowsArgument (utf8ToWide windows argument)) := by
      cases arguments with
      | nil => exact ended_nil
      | cons => exact ended_space
    have hwide := arguments_quoteWindowsArgument (arguments.map (utf8ToWide windows))
    rw [List.flatMap_map] at hwide
    rw [mainArguments, List.tail_cons,
      program_quoteWindowsArgument (windows.unquoted _ hstarted) hended, hwide]
    clear hended hwide
    induction arguments with
    | nil => rfl
    | cons argument arguments ih =>
      have hback := @utf8_utf8ToWide windows argument (hutf8 argument List.mem_cons_self)
      have hempty : utf8ToWide windows argument ≠ [] ↔ argument ≠ [] := by
        rw [← hback, ne_eq, ne_eq, utf8_eq_nil, hback]
      rw [List.map_cons, List.filter_cons, List.filter_cons]
      simp only [hempty]
      split
      . rw [List.map_cons, hback, ih fun a ha => hutf8 a (List.mem_cons_of_mem _ ha)]
      . exact ih fun a ha => hutf8 a (List.mem_cons_of_mem _ ha)
  . cases hstart

end Quoting

namespace FfmpegSetup

variable {setup : FfmpegSetup}

def Arrives (argument : Bytes) : Prop := IsUtf8 argument ∧ argument ≠ []

theorem arrives_texts {list : List String} (h : "" ∉ list) : ∀ argument ∈ texts list, Arrives argument := by
  intro argument hargument
  obtain ⟨text, htext, rfl⟩ := List.mem_map.mp hargument
  refine ⟨isUtf8_lit text, ?_⟩
  rw [lit_eq]
  intro hempty
  apply h
  have hnil : text.toList = [] := utf8_eq_nil.mp hempty
  rw [String.toList_eq_nil_iff] at hnil
  exact hnil ▸ htext

theorem arrives_encoderArguments (hencoder : Arrives setup.config.videoEncoder)
    (hpreset : Arrives setup.config.videoPreset)
    : ∀ argument ∈ setup.encoderArguments, Arrives argument := by
  unfold encoderArguments
  split
  . simp only [List.forall_mem_append, List.forall_mem_singleton]
    exact ⟨⟨⟨⟨arrives_texts (by decide), hencoder⟩, arrives_texts (by decide)⟩, hpreset⟩,
      arrives_texts (by decide)⟩
  . repeat' split
    . exact arrives_texts (by decide)
    . exact arrives_texts (by decide)
    . exact arrives_texts (by decide)
    . simp

theorem arrives_speedArguments : ∀ argument ∈ setup.speedArguments, Arrives argument := by
  unfold speedArguments
  split
  . simp
  . simp only [List.forall_mem_append, List.forall_mem_singleton]
    refine ⟨arrives_texts (by decide), ?_, ?_⟩
    . exact (isUtf8_lit _).append ⟨_, rfl⟩
    . rw [lit_eq]
      simp

theorem arrives_videoArguments (hencoder : Arrives setup.config.videoEncoder)
    (hpreset : Arrives setup.config.videoPreset)
    : ∀ argument ∈ setup.videoArguments, Arrives argument := by
  unfold videoArguments
  split
  . exact arrives_texts (by decide)
  . simp only [List.forall_mem_append]
    exact ⟨⟨arrives_encoderArguments hencoder hpreset, arrives_texts (by decide)⟩, arrives_speedArguments⟩

theorem arrives_audioArguments : ∀ argument ∈ setup.audioArguments, Arrives argument := by
  unfold audioArguments
  split
  . exact arrives_texts (by decide)
  . exact arrives_texts (by decide)

theorem exists_buildArguments (hencoder : Arrives setup.config.videoEncoder)
    (hpreset : Arrives setup.config.videoPreset)
    : ∃ before after, setup.buildArguments = before ++ setup.config.ffmpegLogLevel :: after
        ∧ (∀ argument ∈ before, Arrives argument) ∧ ∀ argument ∈ after, Arrives argument := by
  unfold buildArguments
  simp only [List.append_assoc, List.singleton_append]
  refine ⟨_, _, rfl, ?_, ?_⟩
  . exact arrives_texts (by decide)
  . refine List.forall_mem_append.mpr ⟨arrives_texts (by decide), ?_⟩
    simp only [List.forall_mem_append]
    exact ⟨arrives_videoArguments hencoder hpreset, arrives_audioArguments, arrives_texts (by decide)⟩

theorem sameArguments_of_arrives {windows : WindowsHost} {command : List Char}
    (hencoder : Arrives setup.config.videoEncoder) (hpreset : Arrives setup.config.videoPreset)
    (hlevel : IsUtf8 setup.config.ffmpegLogLevel)
    (hstart : startWindows windows setup.config setup.buildArguments = .ok command)
    : (mainArguments command).tail.map utf8 = (startLinux setup.buildArguments).tail
        ↔
      setup.config.ffmpegLogLevel ≠ [] := by
  obtain ⟨before, after, harguments, hbefore, hafter⟩ := exists_buildArguments hencoder hpreset
  have hutf8 : ∀ argument ∈ setup.buildArguments, IsUtf8 argument := by
    rw [harguments, List.forall_mem_append, List.forall_mem_cons]
    exact ⟨fun a ha => (hbefore a ha).1, hlevel, fun a ha => (hafter a ha).1⟩
  rw [mainArguments_startWindows hutf8 hstart, startLinux, List.tail_cons, List.filter_eq_self]
  constructor
  . intro hall
    apply of_decide_eq_true
    apply hall
    rw [harguments]
    exact List.mem_append_right before List.mem_cons_self
  . intro hne
    rw [harguments, List.forall_mem_append, List.forall_mem_cons]
    exact ⟨fun a ha => decide_eq_true (hbefore a ha).2, decide_eq_true hne,
      fun a ha => decide_eq_true (hafter a ha).2⟩

/--
FFmpeg is given the same arguments on both platforms except where the log level is empty.
-/
theorem sameArguments_iff (windows : WindowsHost) (host : ConfigHost) {json : Bytes} {command : List Char}
    (hload : Config.load host json = .ok setup.config)
    (hencoder : IsUtf8 setup.config.videoEncoder) (hpreset : IsUtf8 setup.config.videoPreset)
    (hlevel : IsUtf8 setup.config.ffmpegLogLevel)
    (hstart : startWindows windows setup.config setup.buildArguments = .ok command)
    : (mainArguments command).tail.map utf8 = (startLinux setup.buildArguments).tail
        ↔
      setup.config.ffmpegLogLevel ≠ [] := by
  have hvalid := (Config.of_load hload).2
  unfold Config.valid at hvalid
  simp only [Bool.and_eq_true, Bool.not_eq_true', List.isEmpty_eq_false_iff] at hvalid
  exact sameArguments_of_arrives ⟨hencoder, hvalid.1.1.1.2⟩ ⟨hpreset, hvalid.1.1.2⟩ hlevel hstart

section Samples

def sampleWindows : WindowsHost where
  multiByteToWideChar value := ((ByteArray.utf8Decode? value.toByteArray).map Array.toList).getD []
  multiByteToWideChar_utf8 text := by
    have hbytes : (utf8 text).toByteArray = text.utf8Encode := rfl
    rw [hbytes, List.utf8Decode?_utf8Encode]
    rfl
  wstring value := value.map fun c => Char.ofNat c.toNat
  startError path := if '"' ∈ path then some 123 else none
  unquoted path h := by
    intro hquote
    rw [if_pos hquote] at h
    cases h

def sampleHost : ConfigHost := ⟨fun _ => false, id, none, none, none⟩

def transcoding (config : Config) : FfmpegSetup where
  config
  speed := .ofNat 1
  outputMode := .H264Transcode
  hardware := {}
  forceSoftware := false
  speedText _ := "1".toList

theorem sameArguments_iff_defaults
    : ∃ command, startWindows sampleWindows {} (transcoding {}).buildArguments = .ok command
        ∧ (mainArguments command).tail.map utf8 = (startLinux (transcoding {}).buildArguments).tail :=
  ⟨_, rfl, (@sameArguments_iff (transcoding {}) sampleWindows sampleHost (Bytes.lit "\x7b\x7d") _ rfl
    (isUtf8_lit _) (isUtf8_lit _) (isUtf8_lit _) rfl).mpr (by decide)⟩

def silent : Bytes := Bytes.lit "\x7b\"ffmpeg\": \x7b\"logLevel\": \"\"\x7d\x7d"

theorem argument_lost_silent
    : ∃ config command, Config.load sampleHost silent = .ok config
        ∧ startWindows sampleWindows config (transcoding config).buildArguments = .ok command
        ∧ (mainArguments command).tail.map utf8 ≠ (startLinux (transcoding config).buildArguments).tail := by
  refine ⟨{ ffmpegLogLevel := [] }, _, rfl, rfl, ?_⟩
  intro h
  exact (@sameArguments_of_arrives (transcoding { ffmpegLogLevel := [] }) sampleWindows _
    ⟨isUtf8_lit _, by decide⟩ ⟨isUtf8_lit _, by decide⟩ ⟨[], rfl⟩ rfl).mp h rfl

end Samples

end FfmpegSetup

end HikBridge
