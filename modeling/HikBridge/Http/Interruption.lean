import HikBridge.Http.CleanupRequest
import HikBridge.Http.OneResponse
import HikBridge.Video.Interruption

/-!
This module contains which requests and which schedules of the socket make a connection send a second
status line: those that stop in the middle of a JSON answer or of the header block of a video.
-/

namespace HikBridge.Exchange

variable {c : Server} {request : HttpRequest}

/--
What a connection has to send unless something throws: an answer, after so many calls and log lines that
follow the reading of the request, or a video.
-/
inductive Due where
  | answer (calls logs : Nat) (answer : Answer)
  | video (stream : StreamRequest)

-- The parameter `sid`, where it is given.
def sidOf (request : HttpRequest) : Option Bytes :=
  (request.query (Bytes.lit "sid")).filter (· ≠ [])

-- The parameter `elapsedMs`, where it is valid.
def elapsedOf (request : HttpRequest) : Option Int :=
  match request.query (Bytes.lit "elapsedMs") with
  | none => some 0
  | some text => (stoll text).filter fun elapsed => 0 ≤ elapsed ∧ elapsed ≤ 600000

def cleaned (c : Server) : Answer :=
  .json (if c.cleaning = 0 then 200 else 202)
    (Bytes.lit "\x7b\"applied\":true,\"affectedSessions\":" ++ Bytes.ofInt c.affected
      ++ Bytes.lit ",\"cleaningSessions\":" ++ Bytes.ofInt c.cleaning
      ++ Bytes.lit ",\"generation\":\"" ++ c.generation ++ Bytes.lit "\"\x7d")

def dueAt (c : Server) (request : HttpRequest) : Endpoint → Option Due
  | .cleanSessions => some (.answer 1 0 (cleaned c))
  | .preflight cleanSessions => some (.answer 0 0 (.preflight cleanSessions))
  | .refuse _ => none
  | .health => some (.answer 1 0 (.json 200 (healthBody c)))
  | .version => some (.answer 0 0 (.json 200 (versionBody c)))
  | .sessionStatus => do
    let sid ← sidOf request
    match c.status sid with
    | none => some (.answer 1 0 (sessionNotFound sid))
    | some status => some (.answer 1 0 (.json 200 (sessionStatusBody status)))
  | .sessionRendered => do
    let sid ← sidOf request
    let elapsed ← elapsedOf request
    match c.firstFrame sid elapsed with
    | none => some (.answer 1 0 (sessionNotFound sid))
    | some _ => some (.answer 1 1 (.json 200 (Bytes.lit "\x7b\"status\":\"ok\"\x7d")))
  | .video =>
    match c.parseStreamRequest request.query with
    | .error _ => none
    | .ok stream => some (.video stream)

def due (c : Server) (request : HttpRequest) : Option Due := dueAt c request request.endpoint

/--
The calls and log lines before an answer do not throw, and its text is cut short by the timeout.
-/
def AnswerCut (c : Server) (calls logs : Nat) (answer : Answer) (ticks : List Tick) : Prop :=
  ∃ called logged sends rest, ticks = called ++ (logged ++ sends) ∧ called.length = calls ∧ logged.length = logs
    ∧ (∀ tick ∈ called, tick.fails = none)
    ∧ (c.setting.loggingThrows = true → ∀ tick ∈ logged, tick.fails = none)
    ∧ Undisturbed (called ++ logged)
    ∧ CutShort c.setting.windows answer.text.length (.bridge Client.clientWriteTimeout) sends rest

-- What precedes the header block of a video on its connection.
def videoDue (c : Server) (stream : StreamRequest) : Program Exchange Tick Exn Pipeline.Output := do
  let _ ← onEnv external
  Program.update fun e => { e with sid := stream.sid }
  onEnv (logLine c.setting)
  onWorld (World.headersDue { c.setting with request := stream })

/--
The socket takes a part of the answer that is due and then nothing until the timeout, or it cuts the
header block of the video that is due.
-/
inductive Interrupted (c : Server) (request : HttpRequest) (ticks : List Tick) : Prop where
  | answer {calls logs : Nat} {answer : Answer} (hdue : due c request = some (.answer calls logs answer))
      (hcut : AnswerCut c (calls + 1) logs answer ticks)
  | video {stream : StreamRequest} {output : Pipeline.Output} {e : Exchange} {sends : List Tick}
      (hdue : due c request = some (.video stream))
      (hsetup : videoDue c stream {} ticks = (.ok output, e, sends)) (hrunning : e.world.env.running = true)
      (hcut : World.HeadersCut { c.setting with request := stream }
        (Client.videoHeaders { c.setting with request := stream } output.initialMp4).length sends)

/--
The program throws what the `catch` clauses must not find.
-/
def Fails (m : Program Exchange Tick Exn Unit) (e : Exchange) (ts : List Tick) : Prop :=
  ∃ exn e' us, m e ts = (.error exn, e', us) ∧ Stalled exn e'

def advance (e : Exchange) (tick : Tick) : Exchange :=
  { e with world := { e.world with env := e.world.env.advance tick } }

variable {e : Exchange} {ts : List Tick} {calls logs : Nat} {answer : Answer}

theorem Blank.advance (h : Blank e) (tick : Tick) : Blank (e.advance tick) := h.env _

theorem not_fails_raise (h : Blank e) {exn : Exn} : ¬ Fails (Program.raise exn) e ts := by
  rintro ⟨_, _, _, hrun, hstalled⟩
  cases hrun
  exact hstalled.wire h.silent.wire

section Steps

variable {α : Type} {tick : Tick} {exn : Exn}

theorem onEnv_ok {m : Program Env Tick Exn α} {value : α}
    (h : m e.world.env (tick :: ts) = (.ok value, e.world.env.advance tick, ts))
    : onEnv m e (tick :: ts) = (.ok value, e.advance tick, ts) :=
  Program.zoom_ok (p := worldPart) (m := World.onEnv m) (Program.zoom_ok (p := World.envPart) h)

theorem onEnv_error {m : Program Env Tick Exn α}
    (h : m e.world.env (tick :: ts) = (.error exn, e.world.env.advance tick, ts))
    : onEnv m e (tick :: ts) = (.error exn, e.advance tick, ts) := by
  have hworld : World.onEnv m e.world (tick :: ts)
      = (.error exn, World.envPart.put (e.world.env.advance tick) e.world, ts) := by
    unfold World.onEnv Program.zoom
    rw [show World.envPart.get e.world = e.world.env from rfl, h]
  unfold onEnv onWorld Program.zoom
  rw [show worldPart.get e = e.world from rfl, hworld]
  rfl

theorem external_ok (htick : tick.fails = none) (env : Env)
    : external env (tick :: ts) = (.ok tick, env.advance tick, ts) := by
  have hobserve : observe env (tick :: ts) = (.ok tick, env.advance tick, ts) := rfl
  unfold external
  rw [Program.bind_ok hobserve, htick]
  rfl

theorem external_error (htick : tick.fails = some exn) (env : Env)
    : external env (tick :: ts) = (.error exn, env.advance tick, ts) := by
  have hobserve : observe env (tick :: ts) = (.ok tick, env.advance tick, ts) := rfl
  unfold external
  rw [Program.bind_ok hobserve, htick]
  rfl

theorem fails_external_iff {m : Program Exchange Tick Exn Unit} (h : Blank e)
    : Fails (onEnv external >>= fun _ => m) e ts
        ↔
      ∃ tick rest, ts = tick :: rest ∧ tick.fails = none ∧ Fails m (e.advance tick) rest := by
  constructor
  . rintro ⟨exn, e', us, hrun, hstalled⟩
    cases ts with
    | nil => cases hrun
    | cons tick rest =>
      refine ⟨tick, rest, rfl, ?_⟩
      cases htick : tick.fails with
      | some exn' =>
        rw [Program.bind_error (onEnv_error (external_error htick _))] at hrun
        cases hrun
        exact absurd h.silent.wire hstalled.wire
      | none =>
        rw [Program.bind_ok (onEnv_ok (external_ok htick _))] at hrun
        exact ⟨rfl, exn, e', us, hrun, hstalled⟩
  . rintro ⟨tick, rest, rfl, htick, exn, e', us, hrun, hstalled⟩
    refine ⟨exn, e', us, ?_, hstalled⟩
    rw [Program.bind_ok (onEnv_ok (external_ok htick _))]
    exact hrun

theorem logLine_ok {v : Setting} (htick : v.loggingThrows = true → tick.fails = none) (env : Env)
    : logLine v env (tick :: ts) = (.ok (), env.advance tick, ts) := by
  have hobserve : observe env (tick :: ts) = (.ok tick, env.advance tick, ts) := rfl
  unfold logLine
  rw [Program.bind_ok hobserve]
  cases hfails : tick.fails with
  | none => rfl
  | some exn =>
    have hthrows : ¬ v.loggingThrows = true := by
      intro hthrows
      rw [htick hthrows] at hfails
      cases hfails
    show (if v.loggingThrows = true then _ else _ : Program Env Tick Exn Unit) _ _ = _
    rw [if_neg hthrows]
    rfl

theorem logLine_error {v : Setting} (htick : tick.fails = some exn) (hthrows : v.loggingThrows = true) (env : Env)
    : logLine v env (tick :: ts) = (.error exn, env.advance tick, ts) := by
  have hobserve : observe env (tick :: ts) = (.ok tick, env.advance tick, ts) := rfl
  unfold logLine
  rw [Program.bind_ok hobserve, htick]
  show (if v.loggingThrows = true then _ else _ : Program Env Tick Exn Unit) _ _ = _
  rw [if_pos hthrows]
  rfl

theorem fails_log_iff {m : Program Exchange Tick Exn Unit} (h : Blank e)
    : Fails (onEnv (logLine c.setting) >>= fun _ => m) e ts
        ↔
      ∃ tick rest, ts = tick :: rest ∧ (c.setting.loggingThrows = true → tick.fails = none)
        ∧ Fails m (e.advance tick) rest := by
  constructor
  . rintro ⟨exn, e', us, hrun, hstalled⟩
    cases ts with
    | nil => cases hrun
    | cons tick rest =>
      refine ⟨tick, rest, rfl, ?_⟩
      by_cases hthrows : c.setting.loggingThrows = true ∧ tick.fails ≠ none
      . obtain ⟨exn', htick⟩ := Option.ne_none_iff_exists'.mp hthrows.2
        rw [Program.bind_error (onEnv_error (logLine_error htick hthrows.1 _))] at hrun
        cases hrun
        exact absurd h.silent.wire hstalled.wire
      . have htick : c.setting.loggingThrows = true → tick.fails = none :=
          fun hlogs => not_not.mp fun hne => hthrows ⟨hlogs, hne⟩
        rw [Program.bind_ok (onEnv_ok (logLine_ok htick _))] at hrun
        exact ⟨htick, exn, e', us, hrun, hstalled⟩
  . rintro ⟨tick, rest, rfl, htick, exn, e', us, hrun, hstalled⟩
    refine ⟨exn, e', us, ?_, hstalled⟩
    rw [Program.bind_ok (onEnv_ok (logLine_ok htick _))]
    exact hrun

end Steps

-- The server runs, and the answer that is due is cut short.
def Cuts (c : Server) (calls logs : Nat) (answer : Answer) (e : Exchange) (ts : List Tick) : Prop :=
  e.world.env.running = true ∧ AnswerCut c calls logs answer ts

theorem fails_sendAnswer_iff (h : Blank e) : Fails (sendAnswer c answer) e ts ↔ Cuts c 0 0 answer e ts := by
  let e₁ : Exchange := { e with answers := e.answers ++ [(e.world.wire.length, answer)] }
  have hsend : ∀ ts, sendAnswer c answer e ts
      = onWorld (World.onClient (Client.sendText c.setting answer.text)) e₁ ts := fun _ => rfl
  constructor
  . rintro ⟨exn, e', us, hrun, hstalled⟩
    rw [hsend] at hrun
    obtain ⟨w, hworld, rfl⟩ := Program.error_of_zoom hrun
    obtain ⟨client, htext, rfl⟩ := Program.error_of_zoom hworld
    obtain ⟨hrunning, hcut⟩ := Client.cutShort_of_sendText htext h.silent.wire hstalled.wire hstalled.running
    rcases hcut.exn_eq with rfl | rfl
    . exact ⟨hrunning, [], [], ts, us, rfl, rfl, rfl, List.forall_mem_nil _, fun _ => List.forall_mem_nil _,
        undisturbed_nil, hcut⟩
    . exact absurd rfl hstalled.exn
  . rintro ⟨hrunning, called, logged, sends, us, rfl, hcalled, hlogged, -, -, -, hcut⟩
    cases List.eq_nil_of_length_eq_zero hcalled
    cases List.eq_nil_of_length_eq_zero hlogged
    have hclient : (World.clientPart.get e₁.world).env.running = true := hrunning
    obtain ⟨client, htext, hstill, hlength⟩ := Client.sendText_of_cutShort hcut hclient
    refine ⟨_, _, us, (hsend _).trans (Program.zoom_error (p := worldPart)
      (Program.zoom_error (p := World.clientPart) htext)), ?_⟩
    exact ⟨by simp, List.length_pos_iff.mp (Nat.zero_lt_of_lt hlength), h.silent.responseStarted, hstill⟩

theorem cuts_log_iff
    : Cuts c 0 (logs + 1) answer e ts
        ↔
      ∃ tick rest, ts = tick :: rest ∧ (c.setting.loggingThrows = true → tick.fails = none)
        ∧ Cuts c 0 logs answer (e.advance tick) rest := by
  constructor
  . rintro ⟨hrunning, called, logged, sends, us, rfl, hcalled, hlogged, -, hlogs, hundisturbed, hcut⟩
    cases List.eq_nil_of_length_eq_zero hcalled
    obtain ⟨tick, logged, rfl⟩ := List.exists_cons_of_length_eq_add_one hlogged
    refine ⟨tick, logged ++ sends, rfl, fun hthrows => hlogs hthrows tick List.mem_cons_self, ?_⟩
    refine ⟨after_running hrunning (hundisturbed.start ⟨logged, rfl⟩ : Undisturbed [tick]), [], logged, sends, us,
      rfl, rfl, Nat.succ.inj hlogged, List.forall_mem_nil _, ?_, ?_, hcut⟩
    . exact fun hthrows other hmem => hlogs hthrows other (List.mem_cons_of_mem tick hmem)
    . exact fun other hmem => hundisturbed other (List.mem_cons_of_mem tick hmem)
  . rintro ⟨tick, rest, rfl, htick, hrunning, called, logged, sends, us, rfl, hcalled, rfl, -, hlogs, hundisturbed, hcut⟩
    obtain ⟨hclient, hshutdown⟩ := advance_running hrunning
    cases List.eq_nil_of_length_eq_zero hcalled
    refine ⟨hclient, [], tick :: logged, sends, us, rfl, rfl, rfl, List.forall_mem_nil _, fun hthrows => ?_, ?_, hcut⟩
    . exact List.forall_mem_cons.mpr ⟨htick hthrows, hlogs hthrows⟩
    . exact undisturbed_cons hshutdown hundisturbed

theorem cuts_call_iff
    : Cuts c (calls + 1) logs answer e ts
        ↔
      ∃ tick rest, ts = tick :: rest ∧ tick.fails = none ∧ Cuts c calls logs answer (e.advance tick) rest := by
  constructor
  . rintro ⟨hrunning, called, logged, sends, us, rfl, hcalled, hlogged, hcalls, hlogs, hundisturbed, hcut⟩
    obtain ⟨tick, called, rfl⟩ := List.exists_cons_of_length_eq_add_one hcalled
    refine ⟨tick, called ++ (logged ++ sends), rfl, hcalls tick List.mem_cons_self, ?_⟩
    refine ⟨after_running hrunning (hundisturbed.start ⟨called ++ logged, rfl⟩ : Undisturbed [tick]), called, logged,
      sends, us, rfl, Nat.succ.inj hcalled, hlogged, ?_, hlogs, ?_, hcut⟩
    . exact fun other hmem => hcalls other (List.mem_cons_of_mem tick hmem)
    . exact fun other hmem => hundisturbed other (List.mem_cons_of_mem tick hmem)
  . rintro ⟨tick, rest, rfl, htick, hrunning, called, logged, sends, us, rfl, rfl, rfl, hcalls, hlogs, hundisturbed, hcut⟩
    obtain ⟨hclient, hshutdown⟩ := advance_running hrunning
    refine ⟨hclient, tick :: called, logged, sends, us, rfl, rfl, rfl, ?_, hlogs, ?_, hcut⟩
    . exact List.forall_mem_cons.mpr ⟨htick, hcalls⟩
    . exact undisturbed_cons hshutdown hundisturbed

def FailsAt (c : Server) (calls logs : Nat) (answer : Answer) (m : Program Exchange Tick Exn Unit) : Prop :=
  ∀ e ts, Blank e → (Fails m e ts ↔ Cuts c calls logs answer e ts)

theorem failsAt_sendAnswer : FailsAt c 0 0 answer (sendAnswer c answer) := fun _ _ h => fails_sendAnswer_iff h

theorem FailsAt.log {m : Program Exchange Tick Exn Unit} (hm : FailsAt c 0 logs answer m)
    : FailsAt c 0 (logs + 1) answer (onEnv (logLine c.setting) >>= fun _ => m) := by
  intro e ts h
  rw [fails_log_iff h, cuts_log_iff]
  simp only [hm _ _ (h.advance _)]

theorem FailsAt.call {m : Program Exchange Tick Exn Unit} (hm : FailsAt c calls logs answer m)
    : FailsAt c (calls + 1) logs answer (onEnv external >>= fun _ => m) := by
  intro e ts h
  rw [fails_external_iff h, cuts_call_iff]
  simp only [hm _ _ (h.advance _)]

theorem fails_requiredSid_iff {f : Bytes → Program Exchange Tick Exn Unit} (h : Blank e)
    : Fails (requiredSid request >>= f) e ts ↔ ∃ sid, sidOf request = some sid ∧ Fails (f sid) e ts := by
  have hraise : ∀ exn, ¬ Fails (Program.raise exn >>= f) e ts := fun _ => not_fails_raise h
  unfold requiredSid sidOf
  cases hsid : request.query (Bytes.lit "sid") with
  | none => simpa using hraise _
  | some sid =>
    cases sid with
    | nil => simpa using hraise _
    | cons b sid =>
      simp
      rfl

theorem fails_elapsedMs_iff {f : Int → Program Exchange Tick Exn Unit} (h : Blank e)
    : Fails (elapsedMs request >>= f) e ts
        ↔
      ∃ elapsed, elapsedOf request = some elapsed ∧ Fails (f elapsed) e ts := by
  have hraise : ∀ exn, ¬ Fails (Program.raise exn >>= f) e ts := fun _ => not_fails_raise h
  unfold elapsedMs elapsedOf
  cases htext : request.query (Bytes.lit "elapsedMs") with
  | none =>
    simp
    rfl
  | some text =>
    dsimp only
    cases hvalue : stoll text with
    | none => simpa using hraise _
    | some elapsed =>
      dsimp only
      by_cases hrange : elapsed < 0 ∨ 600000 < elapsed
      . rw [if_pos hrange, Option.filter_some, if_neg (by simp; omega)]
        simpa using hraise _
      . rw [if_neg hrange, Option.filter_some, if_pos (by simp; omega)]
        simp
        rfl

theorem fails_iff_cuts {m : Program Exchange Tick Exn Unit} {endpoint : Endpoint} (h : Blank e)
    (hm : FailsAt c calls logs answer m)
    (hdue : dueAt c request endpoint = some (.answer calls logs answer))
    : Fails m e ts
        ↔
      ∃ calls logs answer, dueAt c request endpoint = some (.answer calls logs answer)
        ∧ Cuts c calls logs answer e ts := by
  rw [hm e ts h]
  constructor
  . exact fun hcuts => ⟨calls, logs, answer, hdue, hcuts⟩
  . rintro ⟨_, _, _, hdue', hcuts⟩
    cases hdue.symm.trans hdue'
    exact hcuts

theorem not_fails_iff_cuts {m : Program Exchange Tick Exn Unit} {endpoint : Endpoint} (hm : ¬ Fails m e ts)
    (hdue : dueAt c request endpoint = none)
    : Fails m e ts
        ↔
      ∃ calls logs answer, dueAt c request endpoint = some (.answer calls logs answer)
        ∧ Cuts c calls logs answer e ts := by
  simp [hm, hdue]

theorem fails_serve_iff (h : Blank e) (hvideo : request.endpoint ≠ .video)
    : Fails (serve c request request.endpoint) e ts
        ↔
      ∃ calls logs answer, due c request = some (.answer calls logs answer) ∧ Cuts c calls logs answer e ts := by
  unfold due
  cases hendpoint : request.endpoint with
  | cleanSessions =>
    obtain ⟨-, hmethod, hquery, hheader⟩ := endpoint_eq_cleanSessions_iff.mp hendpoint
    have hpost : ¬ request.method = Bytes.lit "OPTIONS" := by
      rw [hmethod]
      decide
    show Fails (cleanSessions c request) e ts ↔ _
    unfold cleanSessions
    rw [if_neg hpost, if_neg (not_not.mpr hmethod), if_neg (not_not.mpr hquery), if_neg (not_not.mpr hheader)]
    exact fails_iff_cuts h failsAt_sendAnswer.call rfl
  | preflight cleanSessions => exact fails_iff_cuts h failsAt_sendAnswer rfl
  | refuse error => exact not_fails_iff_cuts (not_fails_raise h) rfl
  | health => exact fails_iff_cuts h failsAt_sendAnswer.call rfl
  | version => exact fails_iff_cuts h failsAt_sendAnswer rfl
  | sessionStatus =>
    show Fails (sessionStatus c request) e ts ↔ _
    unfold sessionStatus
    cases hsid : sidOf request with
    | none =>
      refine not_fails_iff_cuts ?_ (by simp [dueAt, hsid])
      rw [fails_requiredSid_iff h, hsid]
      simp
    | some sid =>
      rw [fails_requiredSid_iff h, hsid]
      simp only [Option.some.injEq, exists_eq_left']
      cases hstatus : c.status sid with
      | none => exact fails_iff_cuts h failsAt_sendAnswer.call (by simp [dueAt, hsid, hstatus])
      | some status => exact fails_iff_cuts h failsAt_sendAnswer.call (by simp [dueAt, hsid, hstatus])
  | sessionRendered =>
    show Fails (sessionRendered c request) e ts ↔ _
    unfold sessionRendered
    cases hsid : sidOf request with
    | none =>
      refine not_fails_iff_cuts ?_ (by simp [dueAt, hsid])
      rw [fails_requiredSid_iff h, hsid]
      simp
    | some sid =>
      rw [fails_requiredSid_iff h, hsid]
      simp only [Option.some.injEq, exists_eq_left']
      cases helapsed : elapsedOf request with
      | none =>
        refine not_fails_iff_cuts ?_ (by simp [dueAt, hsid, helapsed])
        rw [fails_elapsedMs_iff h, helapsed]
        simp
      | some elapsed =>
        rw [fails_elapsedMs_iff h, helapsed]
        simp only [Option.some.injEq, exists_eq_left']
        cases hframe : c.firstFrame sid elapsed with
        | none => exact fails_iff_cuts h failsAt_sendAnswer.call (by simp [dueAt, hsid, helapsed, hframe])
        | some frame =>
          exact fails_iff_cuts h failsAt_sendAnswer.log.call (by simp [dueAt, hsid, helapsed, hframe])
  | video => exact absurd hendpoint hvideo

variable {ticks : List Tick} {stream : StreamRequest}

theorem stalls_iff_fails : Stalls c request ticks ↔ Fails (respond c request) {} ticks := by
  constructor
  . rintro ⟨exn, hexn, hstalled⟩
    refine ⟨exn, _, (respond c request {} ticks).2.2, ?_, hstalled⟩
    rw [← hexn]
  . rintro ⟨exn, e', us, hrun, hstalled⟩
    refine ⟨exn, ?_, ?_⟩
    . rw [hrun]
    . rw [hrun]
      exact hstalled

theorem stalls_iff_answerCut (hvideo : request.endpoint ≠ .video)
    : Stalls c request ticks
        ↔
      ∃ calls logs answer, due c request = some (.answer calls logs answer)
        ∧ AnswerCut c (calls + 1) logs answer ticks := by
  have hserve : ∀ e ts, Blank e → (Fails (serve c request request.endpoint) e ts ↔ _) :=
    fun _ _ h => fails_serve_iff h hvideo
  rw [stalls_iff_fails, respond_eq_serve, fails_external_iff blank_empty]
  constructor
  . rintro ⟨tick, rest, rfl, htick, hfails⟩
    obtain ⟨calls, logs, answer, hdue, hcuts⟩ := (hserve _ _ (blank_empty.advance tick)).mp hfails
    exact ⟨calls, logs, answer, hdue, (cuts_call_iff.mpr ⟨tick, rest, rfl, htick, hcuts⟩).2⟩
  . rintro ⟨calls, logs, answer, hdue, hcut⟩
    obtain ⟨tick, rest, rfl, htick, hcuts⟩ := cuts_call_iff.mp (⟨rfl, hcut⟩ : Cuts c (calls + 1) logs answer {} ticks)
    exact ⟨tick, rest, rfl, htick, (hserve _ _ (blank_empty.advance tick)).mpr ⟨calls, logs, answer, hdue, hcuts⟩⟩

theorem due_eq_video_iff
    : due c request = some (.video stream)
        ↔
      request.endpoint = .video ∧ c.parseStreamRequest request.query = .ok stream := by
  unfold due
  constructor
  . intro h
    cases hendpoint : request.endpoint with
    | video =>
      rw [hendpoint] at h
      refine ⟨rfl, ?_⟩
      cases hstream : c.parseStreamRequest request.query with
      | error exn => simp [dueAt, hstream] at h
      | ok stream => simpa [dueAt, hstream] using h
    | sessionStatus =>
      rw [hendpoint] at h
      cases hsid : sidOf request with
      | none => simp [dueAt, hsid] at h
      | some sid => cases hstatus : c.status sid <;> simp [dueAt, hsid, hstatus] at h
    | sessionRendered =>
      rw [hendpoint] at h
      cases hsid : sidOf request with
      | none => simp [dueAt, hsid] at h
      | some sid =>
        cases helapsed : elapsedOf request with
        | none => simp [dueAt, hsid, helapsed] at h
        | some elapsed => cases hframe : c.firstFrame sid elapsed <;> simp [dueAt, hsid, helapsed, hframe] at h
    | _ => simp [dueAt, hendpoint] at h
  . rintro ⟨hendpoint, hstream⟩
    simp [dueAt, hendpoint, hstream]

theorem interrupted_of_fails_video {tick : Tick} {rest : List Tick}
    (hdue : due c request = some (.video stream)) (htick : tick.fails = none)
    (hfails : Fails (do
        Program.update fun e => { e with sid := stream.sid }
        onEnv (logLine c.setting)
        onWorld (World.handleVideo { c.setting with request := stream })) (({} : Exchange).advance tick) rest)
    : Interrupted c request (tick :: rest) := by
  let v : Setting := { c.setting with request := stream }
  let e₁ : Exchange := { ({} : Exchange).advance tick with sid := stream.sid }
  have hblank := blank_empty.advance tick
  have he₁ : Blank e₁ := ⟨hblank.fresh, hblank.silent, hblank.answers⟩
  replace hfails : Fails (onEnv (logLine c.setting) >>= fun _ => onWorld (World.handleVideo v)) e₁ rest := hfails
  obtain ⟨log, rest, rfl, hlog, exn, e', us, hrun, hstalled⟩ := (fails_log_iff he₁).mp hfails
  obtain ⟨w, hworld, rfl⟩ := Program.error_of_zoom hrun
  have hguarded : ¬ World.Guarded w := by
    rintro (hwire | hstarted | hstopped)
    . exact hstalled.wire hwire
    . exact absurd (hstarted.symm.trans hstalled.responseStarted) (by decide)
    . exact absurd (hstopped.symm.trans hstalled.running) (by decide)
  have he₂ := he₁.advance log
  obtain ⟨output, w₁, sends, hheaders, hrunning, hcut⟩ :=
    World.headersCut_of_handleVideo he₂.fresh.idle ⟨he₂.silent.wire, rfl⟩ hworld hstalled.exn hguarded
  have hsetup : videoDue c stream {} (tick :: log :: rest) = (.ok output, worldPart.put w₁ (e₁.advance log), sends) := by
    unfold videoDue
    rw [Program.bind_ok (onEnv_ok (external_ok htick _)), Program.bind_update,
      Program.bind_ok (onEnv_ok (logLine_ok hlog _))]
    exact Program.zoom_ok (p := worldPart) hheaders
  exact .video hdue hsetup hrunning hcut

theorem interrupted_of_stalls (h : Stalls c request ticks) : Interrupted c request ticks := by
  by_cases hvideo : request.endpoint = .video
  . rw [stalls_iff_fails, respond_eq_serve, fails_external_iff blank_empty] at h
    obtain ⟨tick, rest, rfl, htick, hfails⟩ := h
    rw [hvideo] at hfails
    replace hfails : Fails (video c request) _ rest := hfails
    unfold video at hfails
    cases hstream : c.parseStreamRequest request.query with
    | error exn =>
      rw [hstream] at hfails
      exact absurd hfails (not_fails_raise (blank_empty.advance tick))
    | ok stream =>
      rw [hstream] at hfails
      exact interrupted_of_fails_video (due_eq_video_iff.mpr ⟨hvideo, hstream⟩) htick (by exact hfails)
  . obtain ⟨calls, logs, answer, hdue, hcut⟩ := (stalls_iff_answerCut hvideo).mp h
    exact .answer hdue hcut

theorem blank_of_onEnv {α : Type} {m : Program Env Tick Exn α} {value : α} {e' : Exchange} {us : List Tick}
    (hrun : onEnv m e ts = (.ok value, e', us)) (h : Blank e) : Blank e' := by
  have hends := keeps_onEnv (I := Blank) (m := m) (fun env _ he => he.env env) e ts h
  rw [hrun] at hends
  exact hends

/--
The `try` block comes to its end within these answers, in a server that runs on.
-/
structure Completes (c : Server) (request : HttpRequest) (ticks : List Tick) : Prop where
  uncut : (respond c request {} ticks).1 ≠ .cut
  running : (respond c request {} ticks).2.1.world.env.running = true

theorem stalled_of_breaks {m : Program World Tick Exn Unit}
    (hbreaks : Program.Ends (fun _ _ => False) World.Breaks (fun _ => True) (m e.world ts))
    (huncut : (onWorld m e ts).1 ≠ .cut) (hrunning : (onWorld m e ts).2.1.world.env.running = true)
    : ∃ exn, (onWorld m e ts).1 = .error exn ∧ Stalled exn (onWorld m e ts).2.1 := by
  rcases hm : m e.world ts with ⟨_ | exn | _, w, us⟩
  all_goals rw [hm] at hbreaks
  . exact hbreaks.elim
  . have hrun : onWorld m e ts = (.error exn, worldPart.put w e, us) := Program.zoom_error (p := worldPart) hm
    rw [hrun] at hrunning ⊢
    exact ⟨exn, rfl, hbreaks.exn, hbreaks.wire, hbreaks.responseStarted, hrunning⟩
  . have hrun : onWorld m e ts = (.cut, worldPart.put w e, us) := by
      unfold onWorld Program.zoom
      rw [show worldPart.get e = e.world from rfl, hm]
    rw [hrun] at huncut
    exact absurd rfl huncut

theorem stalls_of_interrupted (h : Interrupted c request ticks) (hcompletes : Completes c request ticks)
    : Stalls c request ticks := by
  cases h with
  | @answer calls logs answer hdue hcut =>
    apply (stalls_iff_answerCut _).mpr ⟨calls, logs, answer, hdue, hcut⟩
    intro hvideo
    cases hstream : c.parseStreamRequest request.query with
    | error exn => simp [due, dueAt, hvideo, hstream] at hdue
    | ok stream => simp [due, dueAt, hvideo, hstream] at hdue
  | @video stream output e sends hdue hsetup hrunning hcut =>
    obtain ⟨hvideo, hstream⟩ := due_eq_video_iff.mp hdue
    obtain ⟨tick, e₁, ts₁, hread, h⟩ := Program.ok_of_bind hsetup
    rw [Program.bind_update] at h
    obtain ⟨_, e₂, ts₂, hlog, h⟩ := Program.ok_of_bind h
    obtain ⟨w, hheaders, rfl⟩ := Program.ok_of_zoom h
    have hrun : respond c request {} ticks
        = onWorld (World.handleVideo { c.setting with request := stream }) e₂ ts₂ := by
      rw [respond_eq_serve, Program.bind_ok hread, hvideo]
      show video c request e₁ ts₁ = _
      unfold video
      rw [hstream]
      exact Program.bind_ok hlog
    have hblank : Blank e₂ := by
      have he₁ := blank_of_onEnv hread blank_empty
      exact blank_of_onEnv hlog ⟨he₁.fresh, he₁.silent, he₁.answers⟩
    have hbreaks := World.breaks_handleVideo hblank.fresh.idle
      ⟨hblank.fresh.unpublished.1, hblank.silent.responseStarted⟩ hheaders hrunning hcut
    obtain ⟨huncut, hstill⟩ := hcompletes
    rw [hrun] at huncut hstill
    unfold Stalls
    rw [hrun]
    exact stalled_of_breaks hbreaks huncut hstill

/--
A connection sees one response in every run in which the socket does not cut short the answer or the
header block that is due. Where it does, and the `try` block comes to its end in a server that runs on,
a socket that then takes bytes again gets a second status line.
-/
theorem one_response (c : Server) (request : HttpRequest) (ticks : List Tick)
    : (¬ Interrupted c request ticks → OneResponse c (handleConnection c request {} ticks).2.1) ∧
        (Completes c request ticks →
          ((∀ rest, OneResponse c (handled c request ticks rest)) ↔ ¬ Interrupted c request ticks)) := by
  have hone : ¬ Interrupted c request ticks → ∀ rest, OneResponse c (handled c request ticks rest) :=
    fun h => oneResponse_handled fun hstalls => h (interrupted_of_stalls hstalls)
  refine ⟨fun h => ?_, fun hcompletes => ⟨fun hall hinterrupted => ?_, hone⟩⟩
  . rw [handleConnection_eq_handled]
    exact hone h _
  . exact not_oneResponse_handled (stalls_of_interrupted hinterrupted hcompletes)
      (hall [quiet, quiet, quiet])

def versionServer : Server where
  setting := World.liveView
  version := Bytes.lit "1.0"
  releaseVersion := Bytes.lit "1.0.0"
  buildDate := Bytes.lit "2025-01-01"
  architecture := Bytes.lit "x64"
  backendName := Bytes.lit "none"
  affected := 0
  cleaning := 0
  generation := []
  counts := { active := 0, maximum := 8, available := 8 }
  status _ := none
  firstFrame _ _ := none
  parseStreamRequest _ := .error .other

def versionRequest : HttpRequest where
  method := Bytes.lit "GET"
  path := Bytes.lit "/version"
  query _ := none
  headers _ := none

/--
The client takes nine bytes and then nothing until the timeout, whose answer it takes again.
-/
def versionStall : List Tick :=
  [quiet, quiet, { quiet with count := 9 }, quiet, { quiet with count := -1, error := .wouldBlock }]
    ++ List.replicate 2 quiet ++ { quiet with late := true } :: List.replicate 4 quiet

theorem one_response_versionStall
    : ¬ OneResponse versionServer (handleConnection versionServer versionRequest {} versionStall).2.1 := by
  intro h
  have hall : ∀ a ∈ (handleConnection versionServer versionRequest {} versionStall).2.1.answers, a.1 = 0 ∨
      (handleConnection versionServer versionRequest {} versionStall).2.1.world.wire.length ≤ a.1 :=
    fun a hmem => h.noSecond a.1 a.2 hmem
  revert hall
  decide +kernel

end HikBridge.Exchange
