import HikBridge.Http.StreamGrammar

/-!
This module contains which queries `parse_stream_request` accepts, and when these are the documented
ones.
-/

namespace HikBridge

structure Describes (number : Bytes → Int → Prop) (speed : Bytes → Float.Model → Prop) (query : Query)
    (config : Config) (request : VideoCodecCache.StreamRequest) : Prop where
  option : query (Bytes.lit "option") = some request.option.text
  ip : query (Bytes.lit "ip") = some request.ip ∧ request.ip ≠ [] ∧ request.ip.length ≤ 128
  port : ∃ text, query (Bytes.lit "port") = some text ∧ number text request.port
  port_range : 1 ≤ request.port ∧ request.port ≤ 65535
  username : query (Bytes.lit "username") = some request.username ∧ request.username ≠ []
    ∧ request.username.length ≤ 63
  password : query (Bytes.lit "password") = some request.password ∧ request.password ≠ []
    ∧ request.password.length ≤ 63
  camera : ∃ text, query (Bytes.lit "camera") = some text ∧ number text request.camera
  camera_range : 0 ≤ request.camera ∧ request.camera ≤ 2147483647
    ∧ (request.channelType ≠ .DigitalIndex → 1 ≤ request.camera)
  sid : query (Bytes.lit "sid") = some request.sid ∧ request.sid ≠ [] ∧ request.sid.length ≤ 128
    ∧ ∀ c ∈ request.sid, isSafeCharacter c = true
  channelType : (query (Bytes.lit "channelType")).getD (Bytes.lit "auto") ∈ request.channelType.texts
  stream : (query (Bytes.lit "stream")).getD (Bytes.lit "main") = request.stream.text
  speed : ∃ value, speed ((query (Bytes.lit "speed")).getD (Bytes.lit "1")) value
    ∧ request.speed = value.toBits ∧ (request.option = .RealPlay → isOne value = true)
  realplay : request.option = .RealPlay → request.start = 0 ∧ request.stop = 0
  playback : request.option = .Playback
    → (∃ text, query (Bytes.lit "start") = some text ∧ number text request.start)
      ∧ (∃ text, query (Bytes.lit "end") = some text ∧ number text request.stop)
      ∧ 0 ≤ request.start ∧ request.start < request.stop
      ∧ request.stop - request.start ≤ config.maxPlaybackSeconds ∧ request.stop < 2 ^ 63
  generation : request.generation = (query (Bytes.lit "generation")).getD []

/--
What is accepted: numbers behind white space, and any text at whose start `std::stod` finds a speed.
-/
abbrev Tolerated (point : UInt8) : Query → Config → VideoCodecCache.StreamRequest → Prop :=
  Describes SpelledLoosely fun text value =>
    Bytes.stod point text = some value ∧ isValidSpeed value = true

abbrev Documented : Query → Config → VideoCodecCache.StreamRequest → Prop :=
  Describes Spelled fun text value => (text, value) ∈ documentedSpeeds

section Acceptance

variable {point : UInt8} {query : Query} {config : Config} {request : VideoCodecCache.StreamRequest}

theorem inAllowedRange_iff {port camera : Int} {channelType : ChannelType}
    {ip username password sid : Bytes}
    : inAllowedRange port camera channelType ip username password sid = true
        ↔
      (1 ≤ port ∧ port ≤ 65535) ∧ (0 ≤ camera ∧ (channelType ≠ .DigitalIndex → 1 ≤ camera))
        ∧ ip.length ≤ 128 ∧ username.length ≤ 63 ∧ password.length ≤ 63
        ∧ sid.length ≤ 128 ∧ sid ≠ [] ∧ ∀ c ∈ sid, isSafeCharacter c = true := by
  unfold inAllowedRange
  rw [Bool.not_eq_true', ← Bool.not_eq_true]
  simp only [isSafeSessionId, Bool.or_eq_true, Bool.and_eq_true, Bool.not_eq_true', decide_eq_true_eq,
    List.isEmpty_eq_false_iff, Bool.and_eq_false_imp, not_or, Classical.not_imp, Bool.not_eq_false,
    List.all_eq_true, not_and, Int.not_lt, Nat.not_lt, gt_iff_lt, and_assoc]

theorem parseTimes_eq_ok_iff {option : StreamOption} {speed : Float.Model} {start stop : Int}
    : parseTimes query config option speed = .ok (start, stop)
        ↔
      (option = .RealPlay → isOne speed = true ∧ start = 0 ∧ stop = 0)
      ∧ (option = .Playback
        → (∃ text, query (Bytes.lit "start") = some text ∧ SpelledLoosely text start)
          ∧ (∃ text, query (Bytes.lit "end") = some text ∧ SpelledLoosely text stop)
          ∧ 0 ≤ start ∧ start < stop ∧ stop - start ≤ config.maxPlaybackSeconds ∧ stop < 2 ^ 63) := by
  cases option with
  | RealPlay =>
    rw [parseTimes]
    split
    . next hone => simp [hone, eq_comm]
    . next hone => simp [hone]
  | Playback =>
    rw [parseTimes]
    simp only [bind_eq_ok_iff, required_eq_ok_iff, parseLong_eq_ok_iff]
    constructor
    . rintro ⟨startText, ⟨hstartText, -⟩, start', ⟨hstart, hstart'⟩, stopText, ⟨hstopText, -⟩, stop',
        ⟨hstop, hstop'⟩, h⟩
      split at h
      . contradiction
      . next hrange =>
        cases h
        refine ⟨by simp, fun _ => ⟨⟨startText, hstartText, hstart⟩, ⟨stopText, hstopText, hstop⟩, ?_⟩⟩
        omega
    . rintro ⟨-, h⟩
      rcases h trivial with ⟨⟨startText, hstartText, hstart⟩, ⟨stopText, hstopText, hstop⟩, hrange⟩
      refine ⟨startText, ⟨hstartText, hstart.ne_nil⟩, start, ⟨hstart, by omega⟩, stopText,
        ⟨hstopText, hstop.ne_nil⟩, stop, ⟨hstop, by omega⟩, if_neg (by omega)⟩

theorem parseStreamRequest_eq_ok_iff
    : parseStreamRequest point query config = .ok request ↔ Tolerated point query config request := by
  constructor
  . intro h
    rcases bind_eq_ok_iff.mp h with ⟨optionText, hoptionText, h⟩
    rcases bind_eq_ok_iff.mp h with ⟨option, hoption, h⟩
    rcases bind_eq_ok_iff.mp h with ⟨ip, hip, h⟩
    rcases bind_eq_ok_iff.mp h with ⟨portText, hportText, h⟩
    rcases bind_eq_ok_iff.mp h with ⟨port, hport, h⟩
    rcases bind_eq_ok_iff.mp h with ⟨username, husername, h⟩
    rcases bind_eq_ok_iff.mp h with ⟨password, hpassword, h⟩
    rcases bind_eq_ok_iff.mp h with ⟨cameraText, hcameraText, h⟩
    rcases bind_eq_ok_iff.mp h with ⟨camera, hcamera, h⟩
    rcases bind_eq_ok_iff.mp h with ⟨sid, hsid, h⟩
    rcases bind_eq_ok_iff.mp h with ⟨channelType, hchannelType, h⟩
    rcases bind_eq_ok_iff.mp h with ⟨stream, hstream, h⟩
    rcases bind_eq_ok_iff.mp h with ⟨speed, hspeed, h⟩
    split at h
    . next hallowed =>
      rcases bind_eq_ok_iff.mp h with ⟨⟨start, stop⟩, htimes, h⟩
      cases h
      rw [required_eq_ok_iff] at hoptionText hip hportText husername hpassword hcameraText hsid
      rw [parseOption_eq_ok_iff] at hoption
      rw [parseInt_eq_ok_iff] at hport hcamera
      rw [parseChannelType_eq_ok_iff] at hchannelType
      rw [parseStream_eq_ok_iff] at hstream
      rw [parseSpeed_eq_ok_iff] at hspeed
      rw [parseTimes_eq_ok_iff] at htimes
      rcases inAllowedRange_iff.mp hallowed with
        ⟨hportRange, hcameraRange, hipLength, husernameLength, hpasswordLength, hsidLength, hsidNe, hsidSafe⟩
      subst hoption
      exact {
        option := hoptionText.1
        ip := ⟨hip.1, hip.2, hipLength⟩
        port := ⟨portText, hportText.1, hport.1⟩
        port_range := hportRange
        username := ⟨husername.1, husername.2, husernameLength⟩
        password := ⟨hpassword.1, hpassword.2, hpasswordLength⟩
        camera := ⟨cameraText, hcameraText.1, hcamera.1⟩
        camera_range := ⟨hcameraRange.1, hcamera.2.2, hcameraRange.2⟩
        sid := ⟨hsid.1, hsid.2, hsidLength, hsidSafe⟩
        channelType := hchannelType
        stream := hstream
        speed := ⟨speed, hspeed, rfl, fun h => (htimes.1 h).1⟩
        realplay := fun h => (htimes.1 h).2
        playback := htimes.2
        generation := rfl }
    . contradiction
  . rintro ⟨hoption, hip, ⟨portText, hportText, hport⟩, hportRange, husername, hpassword,
      ⟨cameraText, hcameraText, hcamera⟩, hcameraRange, hsid, hchannelType, hstream,
      ⟨speed, hspeed, hbits, hone⟩, hrealplay, hplayback, hgeneration⟩
    have htimes : parseTimes query config request.option speed = .ok (request.start, request.stop) :=
      parseTimes_eq_ok_iff.mpr ⟨fun h => ⟨hone h, hrealplay h⟩, hplayback⟩
    have hallowed : inAllowedRange request.port request.camera request.channelType request.ip
        request.username request.password request.sid = true :=
      inAllowedRange_iff.mpr ⟨hportRange, ⟨hcameraRange.1, hcameraRange.2.2⟩, hip.2.2, husername.2.2,
        hpassword.2.2, hsid.2.2.1, hsid.2.1, hsid.2.2.2⟩
    have hne : request.option.text ≠ [] := by cases request.option <;> decide
    refine bind_eq_ok_iff.mpr ⟨_, required_eq_ok_iff.mpr ⟨hoption, hne⟩, ?_⟩
    refine bind_eq_ok_iff.mpr ⟨_, parseOption_eq_ok_iff.mpr rfl, ?_⟩
    refine bind_eq_ok_iff.mpr ⟨_, required_eq_ok_iff.mpr ⟨hip.1, hip.2.1⟩, ?_⟩
    refine bind_eq_ok_iff.mpr ⟨_, required_eq_ok_iff.mpr ⟨hportText, hport.ne_nil⟩, ?_⟩
    refine bind_eq_ok_iff.mpr ⟨_, parseInt_eq_ok_iff.mpr ⟨hport, by omega, by omega⟩, ?_⟩
    refine bind_eq_ok_iff.mpr ⟨_, required_eq_ok_iff.mpr ⟨husername.1, husername.2.1⟩, ?_⟩
    refine bind_eq_ok_iff.mpr ⟨_, required_eq_ok_iff.mpr ⟨hpassword.1, hpassword.2.1⟩, ?_⟩
    refine bind_eq_ok_iff.mpr ⟨_, required_eq_ok_iff.mpr ⟨hcameraText, hcamera.ne_nil⟩, ?_⟩
    refine bind_eq_ok_iff.mpr ⟨_, parseInt_eq_ok_iff.mpr ⟨hcamera, by omega, by omega⟩, ?_⟩
    refine bind_eq_ok_iff.mpr ⟨_, required_eq_ok_iff.mpr ⟨hsid.1, hsid.2.1⟩, ?_⟩
    refine bind_eq_ok_iff.mpr ⟨_, parseChannelType_eq_ok_iff.mpr hchannelType, ?_⟩
    refine bind_eq_ok_iff.mpr ⟨_, parseStream_eq_ok_iff.mpr hstream, ?_⟩
    refine bind_eq_ok_iff.mpr ⟨_, parseSpeed_eq_ok_iff.mpr hspeed, ?_⟩
    rw [if_pos hallowed]
    refine bind_eq_ok_iff.mpr ⟨_, htimes, ?_⟩
    dsimp only
    rw [← hbits, ← hgeneration]

/--
A query is settled as documented: it is accepted exactly as the request that it describes, and everything
else is rejected with `INVALID_PARAMETER`.
-/
structure SettledAsDocumented (point : UInt8) (query : Query) (config : Config) : Prop where
  accepted : ∀ request, parseStreamRequest point query config = .ok request
    ↔ Documented query config request
  rejected : ∀ error, parseStreamRequest point query config = .error error
    → error.httpStatus = 400 ∧ error.code = "INVALID_PARAMETER"

structure PlainTexts (query : Query) : Prop where
  port : ∀ text ∈ query (Bytes.lit "port"), Tight text
  camera : ∀ text ∈ query (Bytes.lit "camera"), Tight text
  start : query (Bytes.lit "option") = some (Bytes.lit "playback")
    → ∀ text ∈ query (Bytes.lit "start"), Tight text
  stop : query (Bytes.lit "option") = some (Bytes.lit "playback")
    → ∀ text ∈ query (Bytes.lit "end"), Tight text
  speed : ∀ text ∈ query (Bytes.lit "speed"), text ∈ documentedSpeeds.map Prod.fst

def ReadsPoint (point : UInt8) (query : Query) : Prop :=
  point = 46 ∨ ∀ text ∈ query (Bytes.lit "speed"), 46 ∉ text

theorem playback_of_text {option : StreamOption} (h : option.text = Bytes.lit "playback")
    : option = .Playback := by
  cases option with
  | RealPlay => exact absurd h (by decide)
  | Playback => rfl

theorem tight_of_exists {name : Bytes} {n : Int} (h : ∃ text, query name = some text ∧ Spelled text n)
    : ∀ text ∈ query name, Tight text := by
  rcases h with ⟨text, htext, hnumber⟩
  intro text' htext'
  rw [Option.mem_def, htext] at htext'
  cases htext'
  exact hnumber.tight

theorem exists_spelled {name : Bytes} {n : Int} (htight : ∀ text ∈ query name, Tight text)
    (h : ∃ text, query name = some text ∧ SpelledLoosely text n)
    : ∃ text, query name = some text ∧ Spelled text n := by
  rcases h with ⟨text, htext, hnumber⟩
  exact ⟨text, htext, spelled_of_tight hnumber (htight text htext)⟩

theorem plainTexts_of_documented (h : Documented query config request) : PlainTexts query where
  port := tight_of_exists h.port
  camera := tight_of_exists h.camera
  start := by
    intro hoption
    rw [h.option] at hoption
    exact tight_of_exists (h.playback (playback_of_text (Option.some.inj hoption))).1
  stop := by
    intro hoption
    rw [h.option] at hoption
    exact tight_of_exists (h.playback (playback_of_text (Option.some.inj hoption))).2.1
  speed := by
    intro text htext
    rcases h.speed with ⟨value, hvalue, -⟩
    rw [Option.mem_def.mp htext, Option.getD_some] at hvalue
    exact List.mem_map.mpr ⟨_, hvalue, rfl⟩

theorem documented_of_plainTexts (h : Tolerated point query config request) (hplain : PlainTexts query)
    : Documented query config request := by
  have htext : (query (Bytes.lit "speed")).getD (Bytes.lit "1") ∈ documentedSpeeds.map Prod.fst := by
    cases hspeed : query (Bytes.lit "speed") with
    | none => decide
    | some text => exact hplain.speed text hspeed
  rcases h.speed with ⟨value, ⟨hread, hvalid⟩, hbits⟩
  exact {
    option := h.option
    ip := h.ip
    port := exists_spelled hplain.port h.port
    port_range := h.port_range
    username := h.username
    password := h.password
    camera := exists_spelled hplain.camera h.camera
    camera_range := h.camera_range
    sid := h.sid
    channelType := h.channelType
    stream := h.stream
    speed := ⟨value, documented_of_stod htext hread hvalid, hbits⟩
    realplay := h.realplay
    playback := by
      intro hoption
      have hquery : query (Bytes.lit "option") = some (Bytes.lit "playback") := by
        rw [h.option, hoption]
        rfl
      rcases h.playback hoption with ⟨hstart, hstop, hrange⟩
      exact ⟨exists_spelled (hplain.start hquery) hstart, exists_spelled (hplain.stop hquery) hstop,
        hrange⟩
    generation := h.generation }

theorem SpelledLoosely.of_spelled {text : Bytes} {n : Int} (h : Spelled text n) : SpelledLoosely text n :=
  ⟨[], text, rfl, by simp, h⟩

theorem exists_spelledLoosely {name : Bytes} {n : Int}
    (h : ∃ text, query name = some text ∧ Spelled text n)
    : ∃ text, query name = some text ∧ SpelledLoosely text n := by
  rcases h with ⟨text, htext, hnumber⟩
  exact ⟨text, htext, .of_spelled hnumber⟩

theorem readsPoint_default (hpoint : ReadsPoint point query)
    : point = 46 ∨ 46 ∉ (query (Bytes.lit "speed")).getD (Bytes.lit "1") := by
  apply hpoint.imp_right
  intro hplain
  cases hspeed : query (Bytes.lit "speed") with
  | none => decide
  | some text => exact hplain text hspeed

theorem tolerated_of_documented (h : Documented query config request) (hpoint : ReadsPoint point query)
    : Tolerated point query config request := by
  rcases h.speed with ⟨value, hvalue, hbits⟩
  have hread := stod_of_documented hvalue (readsPoint_default hpoint)
  exact {
    option := h.option
    ip := h.ip
    port := exists_spelledLoosely h.port
    port_range := h.port_range
    username := h.username
    password := h.password
    camera := exists_spelledLoosely h.camera
    camera_range := h.camera_range
    sid := h.sid
    channelType := h.channelType
    stream := h.stream
    speed := ⟨value, ⟨hread, isValidSpeed_of_documented hvalue⟩, hbits⟩
    realplay := h.realplay
    playback := by
      intro hoption
      rcases h.playback hoption with ⟨hstart, hstop, hrange⟩
      exact ⟨exists_spelledLoosely hstart, exists_spelledLoosely hstop, hrange⟩
    generation := h.generation }

theorem readsPoint_of_tolerated {request' : VideoCodecCache.StreamRequest}
    (h : Documented query config request) (htolerated : Tolerated point query config request')
    : ReadsPoint point query := by
  by_cases hpoint : point = 46
  . exact .inl hpoint
  right
  intro text htext hmem
  rcases h.speed with ⟨value, hvalue, -⟩
  rcases htolerated.speed with ⟨read, ⟨hread, hvalid⟩, -⟩
  rw [Option.mem_def.mp htext, Option.getD_some] at hvalue hread
  exact not_isValidSpeed_of_ne_point (List.mem_map.mpr ⟨_, hvalue, rfl⟩) hpoint hmem hread hvalid

/--
A query is settled as documented exactly if it is written plainly or breaks one of the other rules, and
if the locale reads the speed of a documented one.
-/
theorem settledAsDocumented_iff
    : SettledAsDocumented point query config
        ↔
      ((∃ request, Tolerated point query config request) → PlainTexts query)
        ∧ ((∃ request, Documented query config request) → ReadsPoint point query) := by
  constructor
  . rintro ⟨haccepted, -⟩
    constructor
    . rintro ⟨request, hrequest⟩
      exact plainTexts_of_documented ((haccepted request).mp (parseStreamRequest_eq_ok_iff.mpr hrequest))
    . rintro ⟨request, hrequest⟩
      have hok := (haccepted request).mpr hrequest
      exact readsPoint_of_tolerated hrequest (parseStreamRequest_eq_ok_iff.mp hok)
  . rintro ⟨hplain, hpoint⟩
    constructor
    . intro request
      rw [parseStreamRequest_eq_ok_iff]
      constructor
      . intro hrequest
        exact documented_of_plainTexts hrequest (hplain ⟨request, hrequest⟩)
      . intro hrequest
        exact tolerated_of_documented hrequest (hpoint ⟨request, hrequest⟩)
    . intro error herror
      rcases rejects_parseStreamRequest point query config error herror with ⟨message, rfl⟩
      exact ⟨rfl, rfl⟩

def letteredSpeed : Query :=
  parseQuery (Bytes.lit "option=realplay&ip=192.0.2.10&port=8000&username=admin&password=PASSWORD&camera=33&speed=1x&sid=live-001")

theorem letteredSpeed_accepted : ¬SettledAsDocumented 46 letteredSpeed {} := by
  rintro ⟨haccepted, -⟩
  have hok : (parseStreamRequest 46 letteredSpeed {}).toOption.isSome = true := by decide +kernel
  cases hrequest : parseStreamRequest 46 letteredSpeed {} with
  | error error =>
    rw [hrequest] at hok
    contradiction
  | ok request =>
    rcases ((haccepted request).mp hrequest).speed with ⟨value, hvalue, -⟩
    have htext : (letteredSpeed (Bytes.lit "speed")).getD (Bytes.lit "1")
        ∉ documentedSpeeds.map Prod.fst := by
      decide +kernel
    exact htext (List.mem_map.mpr ⟨_, hvalue, rfl⟩)

end Acceptance

end HikBridge
